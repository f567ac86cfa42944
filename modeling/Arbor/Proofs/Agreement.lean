import Arbor.Proofs.Places

/-! # What an operation sees of the file system

An operation on a path looks at what stands on the way there and at its end, and at nothing else.
Two file systems that agree on the way to a scope and within it cannot be told apart from there: an
operation fails in both for the same reason, or it succeeds in both and they agree again.

* `Agree.exists?`, `Agree.isFolder`: what is asked about a path of the scope has one answer.
* `Agree.writeText`, `Agree.makeFolder`, `Agree.ensureDoc`, `Agree.removeFile` and
  `Agree.removeFolder`: each operation on a path of the scope ends alike.
* `Agree.of_edit`: an edit beside the scope is not seen from it. -/

namespace Arbor

namespace FileSystem

variable {fs fs' : FileSystem} {loc scope : Location}

/-- **The file systems agree** on the way to a scope and within it. -/
def Agree (scope : Location) (fs fs' : FileSystem) : Prop :=
  ∀ loc, loc <+: scope ∨ scope <+: loc → fs.find? loc = fs'.find? loc

theorem Agree.symm (h : Agree scope fs fs') : Agree scope fs' fs :=
  fun loc hloc => (h loc hloc).symm

/-- They agree on the way to any place within the scope. -/
theorem Agree.part (h : Agree scope fs fs') (inside : scope <+: loc) {part : Location}
    (hp : part <+: loc) : fs.find? part = fs'.find? part :=
  h part (List.prefix_or_prefix_of_prefix hp inside)

/-- An edit beside the scope is not seen from it. -/
theorem Agree.of_edit {edited : Location} (edit : Edit (edited <+: ·) fs fs')
    (below : ¬ edited <+: scope) (above : ¬ scope <+: edited) : Agree scope fs fs' := by
  intro loc hloc
  refine (edit.same loc fun hp => ?_).symm
  rcases hloc with hup | hdown
  · exact below (hp.trans hup)
  · rcases List.prefix_or_prefix_of_prefix hp hdown with h | h
    · exact below h
    · exact above h

theorem Agree.insert (h : Agree scope fs fs') (loc : Location) (entry : Entry) :
    Agree scope (fs.insert loc entry) (fs'.insert loc entry) := by
  intro other ho
  by_cases hloc : other = loc
  · subst hloc
    by_cases hnil : other = []
    · subst hnil
      rfl
    · rw [find?_insert_self fs entry hnil, find?_insert_self fs' entry hnil]
  · rw [find?_insert_of_ne fs entry hloc, find?_insert_of_ne fs' entry hloc]
    exact h other ho

theorem Agree.erase (h : Agree scope fs fs') (loc : Location) :
    Agree scope (fs.erase loc) (fs'.erase loc) := by
  intro other ho
  by_cases hnil : other = []
  · subst hnil
    rfl
  · rw [find?_erase fs hnil, find?_erase fs' hnil, h other ho]

/-! ### Walks -/

/-- A walk without links depends on the places that it passes only. -/
theorem walkFrom_congr (ending : Ending) (links : Nat) (base : Location) (slash : Bool)
    {steps : List String} (hn : Location.Named steps) (hc : fs.Clear (base ++ steps))
    (same : ∀ part, part <+: steps → fs.find? (base ++ part) = fs'.find? (base ++ part)) :
    fs.walkFrom ending links base slash steps = fs'.walkFrom ending links base slash steps := by
  induction steps generalizing base with
  | nil => rw [walkFrom, walkFrom]
  | cons n rest ih =>
    have hname := hn n (by simp)
    have hwhole : (base ++ [n]) ++ rest = base ++ n :: rest := by simp
    have hnext : fs'.find? (base ++ [n]) = fs.find? (base ++ [n]) :=
      (same [n] (by simp)).symm
    have hrest : fs.walkFrom ending links (base ++ [n]) slash rest =
        fs'.walkFrom ending links (base ++ [n]) slash rest := by
      refine ih _ (fun m hm => hn m (by simp [hm])) (by rwa [hwhole]) fun part hp => ?_
      rw [List.append_assoc, List.singleton_append]
      exact same (n :: part) (List.cons_prefix_cons.mpr ⟨rfl, hp⟩)
    rw [walkFrom_cons hname.2.2.1 hname.2.2.2, walkFrom_cons hname.2.2.1 hname.2.2.2, hnext]
    cases hfind : fs.find? (base ++ [n]) with
    | none => rfl
    | some entry =>
      cases entry with
      | file content => rfl
      | folder => simp only [hrest]
      | link t => exact absurd hfind (hc (base ++ [n]) ⟨rest, hwhole⟩ t)

theorem Agree.walk (h : Agree scope fs fs') (inside : scope <+: loc) (hn : loc.Named)
    (hc : fs.Clear loc) (ending : Ending) :
    fs'.walk ending (pathOf loc) = fs.walk ending (pathOf loc) := by
  have hfrom := walkFrom_congr ending maxLinks [] (pathOf loc).asksFolder hn hc
    fun part hp => h.part inside hp
  unfold FileSystem.walk
  rw [Path.steps_pathOf hn, hfrom]

theorem Agree.status (h : Agree scope fs fs') (inside : scope <+: loc) (hn : loc.Named)
    (hc : fs.Clear loc) (follow : Bool) :
    fs'.status follow (pathOf loc) = fs.status follow (pathOf loc) := by
  unfold FileSystem.status
  rw [h.walk inside hn hc]
  cases hwalk : fs.walk (if follow then .followed else .kept) (pathOf loc) with
  | error e => rfl
  | ok r =>
    obtain ⟨rfl, -⟩ := walk_pathOf hn hc hwalk
    simp only [bind, Except.bind, h.part inside List.prefix_rfl]

theorem Agree.exists? (h : Agree scope fs fs') (inside : scope <+: loc) (hn : loc.Named)
    (hc : fs.Clear loc) : fs'.exists? (pathOf loc) = fs.exists? (pathOf loc) := by
  unfold FileSystem.exists?
  rw [h.status inside hn hc]

theorem Agree.isFolder (h : Agree scope fs fs') (inside : scope <+: loc) (hn : loc.Named)
    (hc : fs.Clear loc) : fs'.isFolder (pathOf loc) = fs.isFolder (pathOf loc) := by
  unfold FileSystem.isFolder
  rw [h.status inside hn hc]

/-! ### Operations -/

/-- **Two operations end alike:** in the same refusal, or in file systems that agree. -/
inductive Alike (scope : Location) :
    Except OsError FileSystem → Except OsError FileSystem → Prop where
  | refused (e : OsError) : Alike scope (.error e) (.error e)
  | done {fs fs' : FileSystem} (agree : Agree scope fs fs') : Alike scope (.ok fs) (.ok fs')

/-- An operation that walks to a place and goes on from there. -/
theorem Agree.walked (h : Agree scope fs fs') (inside : scope <+: loc) (hn : loc.Named)
    (hc : fs.Clear loc) {ending : Ending} {act act' : Location → Except OsError FileSystem}
    (alike : Alike scope (act loc) (act' loc)) :
    Alike scope (fs.walk ending (pathOf loc) >>= act) (fs'.walk ending (pathOf loc) >>= act') := by
  rw [h.walk inside hn hc]
  cases hwalk : fs.walk ending (pathOf loc) with
  | error e => exact .refused e
  | ok r =>
    obtain ⟨rfl, -⟩ := walk_pathOf hn hc hwalk
    exact alike

theorem Agree.writeText (h : Agree scope fs fs') (inside : scope <+: loc) (hn : loc.Named)
    (hc : fs.Clear loc) (text : String) :
    Alike scope (fs.writeText (pathOf loc) text) (fs'.writeText (pathOf loc) text) := by
  refine h.walked inside hn hc ?_
  rw [← h.part inside List.prefix_rfl]
  split
  · exact .refused _
  · exact .done (h.insert loc _)

theorem Agree.makeFolder (h : Agree scope fs fs') (inside : scope <+: loc) (hn : loc.Named)
    (hc : fs.Clear loc) :
    Alike scope (fs.makeFolder (pathOf loc)) (fs'.makeFolder (pathOf loc)) := by
  refine h.walked inside hn hc ?_
  rw [← h.part inside List.prefix_rfl]
  split
  · exact .refused _
  · exact .done (h.insert loc _)

theorem Agree.removeFile (h : Agree scope fs fs') (inside : scope <+: loc) (hn : loc.Named)
    (hc : fs.Clear loc) :
    Alike scope (fs.removeFile (pathOf loc)) (fs'.removeFile (pathOf loc)) := by
  refine h.walked inside hn hc ?_
  rw [← h.part inside List.prefix_rfl]
  split
  · exact .refused _
  · exact .refused _
  · split
    · exact .refused _
    · exact .done (h.erase loc)

theorem Agree.removeFolder (h : Agree scope fs fs') (inside : scope <+: loc) (hn : loc.Named)
    (hc : fs.Clear loc) :
    Alike scope (fs.removeFolder (pathOf loc)) (fs'.removeFolder (pathOf loc)) := by
  unfold FileSystem.removeFolder
  rw [h.status inside hn hc]
  cases fs.status false (pathOf loc) with
  | error e => exact .refused e
  | ok found =>
    obtain ⟨r, entry⟩ := found
    cases entry with
    | file content => exact .refused _
    | folder => exact .done (h.erase r)
    | link t => exact .done (h.erase r)

theorem Agree.ensureDoc (h : Agree scope fs fs') (inside : scope <+: loc) (hn : loc.Named)
    (hc : fs.Clear (loc ++ [Project.docName loc])) :
    Alike scope (Project.ensureDoc fs (pathOf loc)) (Project.ensureDoc fs' (pathOf loc)) := by
  have hdoc := hn.concat (Project.isName_docName hn)
  have hin := inside.trans (List.prefix_append loc [Project.docName loc])
  unfold Project.ensureDoc
  rw [Project.docPath_pathOf hn, h.exists? hin hdoc hc]
  split
  · exact .done h
  · exact h.writeText hin hdoc hc ""

end FileSystem

end Arbor
