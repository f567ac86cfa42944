import Arbor.Proofs.Turn.Making

/-! # Entries and the links to their agents

The agent of an entry is linked under the name that its target gives. The entry itself is sought at
the path of that name, and there blanks around the name are dropped once more: a name that ends with a
blank before a slash keeps it in the link and loses it in the path.

* `keepsStep_iff`: exactly when making and removing entries keeps the links in step with them.
* `aligned_of_trimmed`: they are kept in step where the name has no blanks around it, and nothing is
  made through a link. -/

namespace Arbor.Turn

open FileSystem Directive Act

variable {project : Project} {d : Desk} {x : Directive .manager} {t : Target} {content : Option String}
  {entry : String} {path folder : Path} {fs fs' made files : FileSystem} {dir r : Location}
  {whose : AgentId → Location}

/-! ### Links and entries in step -/

/-- An entry of the folder vanishes. -/
def Vanishes (fs fs' : FileSystem) (dir : Location) (e : String) : Prop :=
  fs.find? (dir ++ [e]) ≠ none ∧ fs'.find? (dir ++ [e]) = none

/-- An entry of the folder appears. -/
def Appears (fs fs' : FileSystem) (dir : Location) (e : String) : Prop := Vanishes fs' fs dir e

/-- **A link is in step:** it is to the agent of the entry of its name, which is there, and that agent
was made before the next one. -/
structure Tied (whose : AgentId → Location) (dir : Location) (next : Nat) (fs : FileSystem)
    (key : String) (id : AgentId) : Prop where
  place : whose id = dir ++ [key]
  stands : fs.find? (dir ++ [key]) ≠ none
  known : id.number < next

/-- **The links are in step with the entries** of a folder. -/
def InStep (whose : AgentId → Location) (dir : Location) (next : Nat) (fs : FileSystem)
    (children : Table ChildLink) : Prop :=
  ∀ key link, children.get? key = some link → Tied whose dir next fs key link.id

/-- Where the entry of an agent is: an agent that is asked for gets that of its path. -/
def whoseAfter (fs : FileSystem) (effects : List Effect) (whose : AgentId → Location) (id : AgentId) :
    Location :=
  (effects.findSome? fun
    | .adopt id' _ path => if id' = id then (fs.walk .entered path).toOption else none
    | _ => none).getD (whose id)

/-- **A directive keeps links and entries in step.** If an entry vanishes, its agent was idle, is no
longer linked and is the one that is let go; if one appears, the agent that is asked for is linked
under its name; and afterwards all links are in step again. -/
structure KeepsStep (project : Project) (x : Directive .manager) (d : Desk) (dir : Location)
    (whose : AgentId → Location) : Prop where
  removed : ¬ Refused project x d → ∀ e,
    Vanishes d.world.site.files (interpret project x d).2.world.site.files dir e →
    ∀ link, d.agent.children.get? e = some link →
      (∀ work ∈ d.agent.delegated, work.1 ≠ link.id) ∧
      (interpret project x d).2.agent.children.get? e = none ∧
      (interpret project x d).1 = [.release link.id]
  made : ¬ Refused project x d → ∀ e,
    Appears d.world.site.files (interpret project x d).2.world.site.files dir e →
    ∃ link path, (interpret project x d).2.agent.children.get? e = some link ∧
      (interpret project x d).1 = [.adopt link.id link.kind path]
  inStep : InStep (whoseAfter d.world.site.files (interpret project x d).1 whose) dir
    (interpret project x d).2.world.nextNumber (interpret project x d).2.world.site.files
    (interpret project x d).2.agent.children

/-! ### Name and path -/

/-- What becomes of a link at the end of the path whose entry is made or removed. -/
def ending : Directive .manager → FileSystem.Ending
  | .create t _ => if t.isFolder then .entered else .written
  | .delete t => if t.isFolder then .kept else .entered
  | _ => .followed

/-- **Name and path mean one entry,** of which the first gives the link and the second is what stands or
stood at the place: what is made is the entry that the link is named for, and with what is removed goes
no entry that another agent is linked for. -/
def AlignedAt (d : Desk) (dir : Location) (entry : String) (r : Location) : Directive .manager → Prop
  | .create _ _ => Text.trim entry = entry ∧ ∀ e, r = dir ++ [e] → e = entry
  | .delete _ => ∀ e, r <+: dir ++ [e] → e = entry ∨ d.agent.children.get? e = none
  | _ => True

/-- Whatever the target means, its name and its path mean one entry. -/
def Aligned (project : Project) (x : Directive .manager) (d : Desk) (dir : Location) : Prop :=
  ∀ t entry path r, target? x = some t →
    ownEntry project d.world.site d.agent t = .ok (entry, path) →
    d.world.site.files.walk (ending x) path = .ok r → AlignedAt d dir entry r x

theorem aligned_iff (target : target? x = some t)
    (own : ownEntry project d.world.site d.agent t = .ok (entry, path))
    (walk : d.world.site.files.walk (ending x) path = .ok r) :
    Aligned project x d dir ↔ AlignedAt d dir entry r x := by
  refine ⟨fun aligned => aligned t entry path r target own walk, fun alignedAt => ?_⟩
  intro t' entry' path' r' target' own' walk'
  cases target.symm.trans target'
  cases own.symm.trans own'
  cases walk.symm.trans walk'
  exact alignedAt

/-- **Name and path mean one entry** where the name has no blanks around it and nothing is made through
a link. -/
theorem aligned_of_trimmed (inside : dir ≠ []) (scope : d.agent.scope = .folder folder)
    (leads : d.world.site.files.Leads folder.normalize dir)
    (trimmed : ∀ t entry, target? x = some t → entryName t = .ok entry → Text.trim entry = entry)
    (solid : ∀ t content entry path target, x = .create t content →
      ownEntry project d.world.site d.agent t = .ok (entry, path) →
      d.world.site.files.entryAt? path ≠ some (.link target)) : Aligned project x d dir := by
  intro t entry path r target own walk
  have htrim := trimmed t entry target (ownEntry_eq_ok scope own).1
  have isEntry : Path.IsEntry folder.normalize path (Text.trim entry) :=
    (ownEntry_isEntry scope own).resolve_right fun climbs => inside (leads.of_climbs climbs.1)
  have hplace : ∀ {ending r}, ending.follows false = false →
      d.world.site.files.walk ending path = .ok r → r = dir ++ [entry] := by
    intro ending r keeps hwalk
    obtain ⟨loc, hleads, rfl⟩ := leads_of_walk isEntry keeps hwalk
    rw [leads.unique hleads, htrim]
  cases x with
  | create made content =>
    obtain rfl : made = t := Option.some.inj target
    have hr : r = dir ++ [entry] := by
      rw [ending] at walk
      split at walk
      · exact hplace rfl walk
      · obtain ⟨admitted, hwritten⟩ := walk_eq_ok.mp walk
        rcases walkFrom_entered_of_written hwritten with h | ⟨place, link, h, hlink⟩
        · exact hplace rfl (walk_eq_ok.mpr ⟨admitted, h⟩)
        · have hplace := walk_eq_ok.mpr ⟨admitted, h⟩
          exact absurd (entryAt?_eq_some.mpr ⟨place, hplace, hlink⟩)
            (solid made content entry path link rfl own)
    refine ⟨htrim, fun e he => ?_⟩
    simpa using he.symm.trans hr
  | delete =>
    have hr : r = dir ++ [entry] := by
      rw [ending] at walk
      split at walk <;> exact hplace rfl walk
    intro e below
    rw [hr] at below
    have hlength : (dir ++ [entry]).length = (dir ++ [e]).length := by simp
    have hsame := below.eq_of_length hlength
    exact Or.inl (by simpa using hsame.symm)
  | _ => cases target

/-! ### Making an entry -/

theorem whoseAfter_adopt {id : AgentId} {kind : Kind} (other : AgentId) :
    whoseAfter fs [.adopt id kind path] whose other =
      if id = other then (fs.walk .entered path).toOption.getD (whose other) else whose other := by
  unfold whoseAfter
  rw [List.findSome?_cons, List.findSome?_nil]
  by_cases h : id = other
  · simp only [if_pos h]
    cases fs.walk .entered path <;> rfl
  · simp only [if_neg h]
    rfl

/-- What stood stands in the second file system. -/
def Grows (fs fs' : FileSystem) : Prop := ∀ loc, fs.find? loc ≠ none → fs'.find? loc ≠ none

theorem grows_insert {e : Entry} (fs : FileSystem) (r : Location) : Grows fs (fs.insert r e) := by
  intro loc stood
  by_cases hloc : loc = r
  · subst hloc
    by_cases hnil : loc = []
    · rw [hnil, find?_nil]
      exact Option.some_ne_none _
    · rw [find?_insert_self fs e hnil]
      exact Option.some_ne_none _
  · rwa [find?_insert_of_ne fs e hloc]

/-- **Where an entry is made,** in the folder of the agent: at a free place, which is that of its name
unless a link stands there. -/
structure MadeAt (fs files : FileSystem) (dir : Location) (t : Target) (content : Option String)
    (path : Path) (name : String) (r : Location) : Prop where
  walk : fs.walk (ending (.create t content)) path = .ok r
  ends : fs.walk .entered path = .ok (dir ++ [name])
  free : fs.find? r = none
  stands : files.find? (dir ++ [name]) ≠ none
  entries : ∀ e, files.find? (dir ++ [e]) =
    if dir ++ [e] = r then some (newEntry t content) else fs.find? (dir ++ [e])

theorem Begins.madeAt (h : Begins project t content d entry path made)
    (tree : d.world.site.files.IsTree) (scope : d.agent.scope = .folder folder)
    (leads : d.world.site.files.Leads folder.normalize dir)
    (second : (if t.isFolder then Project.ensureDoc made path else .ok made) = .ok files) :
    ∃ r, MadeAt d.world.site.files files dir t content path (Text.trim entry) r := by
  obtain ⟨folder', scope', isEntry⟩ := h.isEntry
  obtain rfl : folder = folder' := by
    have hscope := scope.symm.trans scope'
    injection hscope
  have first := h.first
  unfold firstMade at first
  by_cases hf : t.isFolder = true
  · rw [if_pos hf] at first second
    obtain ⟨loc, hleads, hwalk, placed⟩ := placed_folder content isEntry hf tree first second
    obtain rfl := leads.unique hleads
    refine ⟨loc ++ [Text.trim entry], by rw [ending, if_pos hf]; exact hwalk, hwalk, placed.absent, ?_,
      fun e => ?_⟩
    · rw [placed.files, if_pos rfl]
      exact Option.some_ne_none _
    · -- the notes stand in the new folder, not beside it
      have hdeeper : ¬ (t.isFolder = true ∧
          loc ++ [e] = loc ++ [Text.trim entry, Text.trim entry ++ "_README.md"]) :=
        fun hnotes => by simpa using congrArg List.length hnotes.2
      rw [placed.files, if_neg hdeeper]
  · rw [if_neg hf] at first second
    obtain rfl := Except.ok.inj second
    have hnew : newEntry t content = .file (content.getD "").toUTF8 := by rw [newEntry, if_neg hf]
    obtain ⟨r, place, hwalk, hfree, rfl, hends, hplace⟩ := writeText_absent first h.absent
    obtain ⟨loc, hleads, rfl⟩ := leads_of_walk isEntry rfl hends
    obtain rfl := leads.unique hleads
    have hentries : ∀ e, (d.world.site.files.insert r (.file (content.getD "").toUTF8)).find?
        (loc ++ [e]) = if loc ++ [e] = r then some (newEntry t content)
          else d.world.site.files.find? (loc ++ [e]) := by
      intro e
      split
      · next he => rw [he, find?_insert_new _ hfree, hnew]
      · next he => rw [find?_insert_of_ne _ _ he]
    refine ⟨r, by rw [ending, if_neg hf]; exact hwalk, hends, hfree, ?_, hentries⟩
    rcases hplace with rfl | ⟨target, hlink⟩
    · rw [hentries, if_pos rfl]
      exact Option.some_ne_none _
    · refine grows_insert _ _ _ ?_
      rw [hlink]
      exact Option.some_ne_none _

/-- An agent that is linked is not the next one. -/
theorem Tied.ne_next {next : Nat} {key : String} {id : AgentId} (h : Tied whose dir next fs key id) :
    (⟨next⟩ : AgentId) ≠ id := by
  rintro rfl
  exact Nat.lt_irrefl _ h.known

theorem MadeAt.grows {name : String} (h : MadeAt fs files dir t content path name r)
    {e : String} (stood : fs.find? (dir ++ [e]) ≠ none) : files.find? (dir ++ [e]) ≠ none := by
  rw [h.entries]
  split
  · exact Option.some_ne_none _
  · exact stood

theorem get?_withChild (a : Agent) (entry : String) (id : AgentId) (kind : Kind) (key : String) :
    (withChild a entry id kind).children.get? key =
      if key = entry then some { id := id, kind := kind } else a.children.get? key :=
  Table.get?_put a.children entry key _

/-- An entry was made and linked: what is left, and who is asked for. -/
structure Linked (project : Project) (t : Target) (content : Option String) (d : Desk)
    (entry : String) (path : Path) (files : FileSystem) : Prop where
  fine : ¬ Refused project (.create t content) d
  effects : (interpret project (.create t content) d).1 =
    [.adopt ⟨d.world.nextNumber⟩ (targetKind t) path]
  files : (interpret project (.create t content) d).2.world.site.files = files
  next : (interpret project (.create t content) d).2.world.nextNumber = d.world.nextNumber + 1
  children : (interpret project (.create t content) d).2.agent.children =
    (withChild d.agent entry ⟨d.world.nextNumber⟩ (targetKind t)).children

theorem linked_of_run {note : String}
    (run : (perform project (.create t content)).run d =
      (.ok ⟨.succeeded note, [.adopt ⟨d.world.nextNumber⟩ (targetKind t) path]⟩,
        { agent := withChild d.agent entry ⟨d.world.nextNumber⟩ (targetKind t)
          world := { d.world.withFiles files with nextNumber := d.world.nextNumber + 1 } })) :
    Linked project t content d entry path files := by
  have hinterpret := interpret_of_run run
  refine ⟨not_refused_of_run run, ?_, ?_, ?_, ?_⟩ <;> rw [hinterpret] <;> rfl

/-- The new agent is at the entry of the name without blanks. -/
theorem MadeAt.place {id : AgentId} {kind : Kind} {name : String}
    (h : MadeAt fs files dir t content path name r) :
    whoseAfter fs [.adopt id kind path] whose id = dir ++ [name] := by
  rw [whoseAfter_adopt, if_pos rfl, h.ends]
  rfl

/-- Where links stay in step, what is made is the entry that the link is named for. -/
theorem named_of_keepsStep
    (before : InStep whose dir d.world.nextNumber d.world.site.files d.agent.children)
    (madeAt : MadeAt d.world.site.files files dir t content path (Text.trim entry) r)
    (linked : Linked project t content d entry path files)
    (keeps : KeepsStep project (.create t content) d dir whose) :
    Text.trim entry = entry ∧ ∀ e, r = dir ++ [e] → e = entry := by
  obtain ⟨-, made, inStep⟩ := keeps
  rw [linked.effects] at made inStep
  rw [linked.files] at made
  rw [linked.children] at made inStep
  have hlink := get?_withChild d.agent entry ⟨d.world.nextNumber⟩ (targetKind t) entry
  rw [if_pos rfl] at hlink
  have htrim := madeAt.place.symm.trans (inStep entry _ hlink).place
  refine ⟨by simpa using htrim, fun e he => ?_⟩
  have appears : Appears d.world.site.files files dir e := by
    refine ⟨?_, by rw [← he]; exact madeAt.free⟩
    rw [madeAt.entries, if_pos he.symm]
    exact Option.some_ne_none _
  obtain ⟨link, path', hget, heffects⟩ := made linked.fine e appears
  by_contra hne
  -- the link of another entry is to an agent made before
  rw [get?_withChild, if_neg hne] at hget
  have hid : (⟨d.world.nextNumber⟩ : AgentId) = link.id := by
    have hadopt := List.singleton_inj.mp heffects
    injection hadopt
  exact (before e link hget).ne_next hid

/-- Where what is made is the entry that the link is named for, links stay in step. -/
theorem keepsStep_of_named
    (before : InStep whose dir d.world.nextNumber d.world.site.files d.agent.children)
    (madeAt : MadeAt d.world.site.files files dir t content path (Text.trim entry) r)
    (linked : Linked project t content d entry path files) (trimmed : Text.trim entry = entry)
    (named : ∀ e, r = dir ++ [e] → e = entry) :
    KeepsStep project (.create t content) d dir whose := by
  refine ⟨fun _ e vanishes => ?_, fun _ e appears => ?_, ?_⟩
  · rw [linked.files] at vanishes
    exact absurd vanishes.2 (madeAt.grows vanishes.1)
  · rw [linked.files] at appears
    have hplaced : dir ++ [e] = r := by
      by_contra hne
      have hfound := appears.1
      rw [madeAt.entries, if_neg hne] at hfound
      exact hfound appears.2
    obtain rfl := named e hplaced.symm
    refine ⟨{ id := ⟨d.world.nextNumber⟩, kind := targetKind t }, path, ?_, linked.effects⟩
    rw [linked.children, get?_withChild, if_pos rfl]
  · rw [linked.effects, linked.files, linked.next, linked.children]
    intro key link hget
    rw [get?_withChild] at hget
    split at hget
    · next hkey =>
      cases hget
      subst hkey
      have hstands := madeAt.stands
      rw [trimmed] at hstands
      exact ⟨madeAt.place.trans (by rw [trimmed]), hstands, Nat.lt_succ_self _⟩
    · have tied := before key link hget
      have hplace : whoseAfter d.world.site.files
          [.adopt ⟨d.world.nextNumber⟩ (targetKind t) path] whose link.id = dir ++ [key] := by
        rw [whoseAfter_adopt, if_neg tied.ne_next]
        exact tied.place
      exact ⟨hplace, madeAt.grows tied.stands, Nat.lt_succ_of_lt tied.known⟩

/-! ### Removing an entry -/

/-- What is removed is what the path leads to, with everything below it. -/
theorem walk_of_entryRemoved (h : EntryRemoved fs t path files) :
    ∃ r, fs.walk (ending (.delete t)) path = .ok r ∧ files = fs.erase r := by
  unfold EntryRemoved at h
  by_cases hf : t.isFolder = true
  · rw [if_pos hf] at h
    rw [ending, if_pos hf]
    exact removeFolder_eq_ok h
  · rw [if_neg hf] at h
    rw [ending, if_neg hf]
    exact removeFile_eq_ok h

theorem find?_erase_concat (fs : FileSystem) (e : String) :
    (fs.erase r).find? (dir ++ [e]) = if r <+: dir ++ [e] then none else fs.find? (dir ++ [e]) :=
  find?_erase fs (by simp)

/-- **What is left of the links** when an entry is removed, and who is let go. -/
structure LetGo (d : Desk) (entry : String) (effects : List Effect) (children : Table ChildLink) :
    Prop where
  others : ∀ e, e ≠ entry → children.get? e = d.agent.children.get? e
  gone : children.get? entry = none
  idle : ∀ link, d.agent.children.get? entry = some link →
    (∀ work ∈ d.agent.delegated, work.1 ≠ link.id) ∧ effects = [.release link.id]
  place : ∀ fs whose id, whoseAfter fs effects whose id = whose id

/-- **Removing an entry keeps links and entries in step** exactly if no entry goes with it that another
agent is linked for. -/
theorem keepsStep_removed_iff
    (before : InStep whose dir d.world.nextNumber d.world.site.files d.agent.children)
    (fine : ¬ Refused project x d)
    (files : (interpret project x d).2.world.site.files = d.world.site.files.erase r)
    (next : (interpret project x d).2.world.nextNumber = d.world.nextNumber)
    (letGo : LetGo d entry (interpret project x d).1 (interpret project x d).2.agent.children) :
    KeepsStep project x d dir whose ↔
      ∀ e, r <+: dir ++ [e] → e = entry ∨ d.agent.children.get? e = none := by
  have hfind : ∀ e, (interpret project x d).2.world.site.files.find? (dir ++ [e]) =
      if r <+: dir ++ [e] then none else d.world.site.files.find? (dir ++ [e]) := fun e => by
    rw [files, find?_erase_concat]
  constructor
  · rintro ⟨removed, -, -⟩ e below
    by_contra hlinked
    rw [not_or] at hlinked
    obtain ⟨link, hget⟩ := Option.ne_none_iff_exists'.mp hlinked.2
    obtain ⟨-, hnone, -⟩ := removed fine e
      ⟨(before e link hget).stands, by rw [hfind, if_pos below]⟩ link hget
    rw [letGo.others e hlinked.1, hget] at hnone
    cases hnone
  · intro aligned
    refine ⟨fun _ e vanishes link hget => ?_, fun _ e appears => ?_, ?_⟩
    · have below : r <+: dir ++ [e] := by
        by_contra hbelow
        have hnone := vanishes.2
        rw [hfind, if_neg hbelow] at hnone
        exact vanishes.1 hnone
      rcases aligned e below with rfl | hnone
      · exact ⟨(letGo.idle link hget).1, letGo.gone, (letGo.idle link hget).2⟩
      · rw [hnone] at hget
        cases hget
    · -- nothing appears where something is removed
      have hfound := appears.1
      rw [hfind] at hfound
      split at hfound
      · exact absurd rfl hfound
      · exact absurd appears.2 hfound
    · intro key link hget
      have hother : key ≠ entry := by
        rintro rfl
        rw [letGo.gone] at hget
        cases hget
      rw [letGo.others key hother] at hget
      have tied := before key link hget
      have beside : ¬ r <+: dir ++ [key] := fun below => by
        rcases aligned key below with h | h
        · exact hother h
        · rw [h] at hget
          cases hget
      exact ⟨(letGo.place _ _ _).trans tied.place, by rw [hfind, if_neg beside]; exact tied.stands,
        by rw [next]; exact tied.known⟩

/-! ### Making and removing -/

/-- A refusal keeps links and entries in step, also where a folder was left without notes. -/
theorem keepsStep_of_refused {e : AgentError} {d' : Desk}
    (before : InStep whose dir d.world.nextNumber d.world.site.files d.agent.children)
    (run : (perform project x).run d = (.error e, d'))
    (grows : Grows d.world.site.files d'.world.site.files)
    (next : d'.world.nextNumber = d.world.nextNumber)
    (children : d'.agent.children = d.agent.children) : KeepsStep project x d dir whose := by
  have refused : Refused project x d := ⟨e, by rw [run]⟩
  refine ⟨fun fine => absurd refused fine, fun fine => absurd refused fine, ?_⟩
  rw [interpret_of_run run]
  intro key link hget
  rw [show d'.agent.children.get? key = d.agent.children.get? key by rw [children]] at hget
  have tied := before key link hget
  exact ⟨tied.place, grows _ tied.stands, by rw [next]; exact tied.known⟩

/-- **Making and removing entries keeps links and entries in step** exactly as long as name and path
mean one entry; a refusal always does. -/
theorem keepsStep_iff (makesOrRemoves : (target? x).isSome = true)
    (tree : d.world.site.files.IsTree) (scope : d.agent.scope = .folder folder)
    (leads : d.world.site.files.Leads folder.normalize dir)
    (before : InStep whose dir d.world.nextNumber d.world.site.files d.agent.children) :
    KeepsStep project x d dir whose ↔ Refused project x d ∨ Aligned project x d dir := by
  cases x with
  | create t content =>
    have hcreating := create_creating project t content d
    generalize hrun : ((create project t content).run d : Except AgentError Step × Desk) = out
      at hcreating
    have hperform : (perform project (.create t content)).run d = out := hrun
    cases hcreating with
    | refused e never =>
      exact iff_of_true (keepsStep_of_refused before hperform (fun _ h => h) rfl rfl)
        (Or.inl ⟨e, by rw [hperform]⟩)
    | @noteless entry path made e begins isFolder notes =>
      have first := begins.first
      rw [firstMade, if_pos isFolder] at first
      obtain ⟨r, -, -, rfl⟩ := makeFolder_eq_ok first
      exact iff_of_true (keepsStep_of_refused before hperform (grows_insert _ r) rfl rfl)
        (Or.inl ⟨_, by rw [hperform]⟩)
    | @done entry path made files note begins second =>
      obtain ⟨r, madeAt⟩ := begins.madeAt tree scope leads second
      have linked := linked_of_run hperform
      rw [or_iff_right linked.fine, aligned_iff rfl begins.own madeAt.walk, AlignedAt]
      exact ⟨named_of_keepsStep before madeAt linked, fun named =>
        keepsStep_of_named before madeAt linked named.1 named.2⟩
  | delete t =>
    have hdeletion := delete_run project t d
    generalize hrun : ((delete project t).run d : Except AgentError Step × Desk) = out at hdeletion
    have hperform : (perform project (.delete t)).run d = out := hrun
    cases hdeletion with
    | refused e =>
      exact iff_of_true (keepsStep_of_refused before hperform (fun _ h => h) rfl rfl)
        (Or.inl ⟨e, by rw [hperform]⟩)
    | @unlinked entry path files note own present type removed noChild =>
      obtain ⟨r, hwalk, rfl⟩ := walk_of_entryRemoved removed
      have fine := not_refused_of_run hperform
      have hinterpret := interpret_of_run hperform
      rw [or_iff_right fine, aligned_iff rfl own hwalk, AlignedAt]
      refine keepsStep_removed_iff before fine (by rw [hinterpret]; rfl) (by rw [hinterpret]; rfl) ?_
      rw [hinterpret]
      refine ⟨fun _ _ => rfl, noChild, fun link h => ?_, fun _ _ _ => rfl⟩
      cases noChild.symm.trans h
    | @linked entry path files link note own present type removed child idle =>
      obtain ⟨r, hwalk, rfl⟩ := walk_of_entryRemoved removed
      have fine := not_refused_of_run hperform
      have hinterpret := interpret_of_run hperform
      rw [or_iff_right fine, aligned_iff rfl own hwalk, AlignedAt]
      refine keepsStep_removed_iff before fine (by rw [hinterpret]; rfl) (by rw [hinterpret]; rfl) ?_
      rw [hinterpret]
      refine ⟨fun e he => (Table.get?_drop _ _ _).trans (if_neg he),
        (Table.get?_drop _ _ _).trans (if_pos rfl), fun link' h => ?_, fun _ _ _ => rfl⟩
      cases child.symm.trans h
      exact ⟨idle, rfl⟩
  | _ => cases makesOrRemoves

/-- A folder with a file in it. -/
def barn : FileSystem := ⟨[(["p"], .folder), (["p", "a.py"], .file "pass".toUTF8)]⟩

/-- Its manager, for whom the agent of the file works. -/
def barnDesk : Desk where
  agent := { Agent.fresh ⟨1⟩ .manager "." (.folder (pathOf ["p"])) none 0 with
    children := [("a.py", ⟨⟨2⟩, .coder⟩)]
    delegated := [(⟨2⟩, "one")] }
  world := .start barn [] [] 3

/-- Where the agents are: the manager at the folder, the other one at the file. -/
def barnPlaces (id : AgentId) : Location := if id = ⟨2⟩ then ["p", "a.py"] else ["p"]

theorem barn_isTree : barn.IsTree := isTree_of_forall (by simp [barn, find?, List.lookup])

theorem barn_leads : barn.Leads (pathOf ["p"]).normalize ["p"] := by
  unfold Leads
  decide +kernel

theorem barn_inStep : InStep barnPlaces ["p"] 3 barn barnDesk.agent.children := by
  intro key link hget
  have hlink := (Table.get?_cons "a.py" key _ []).symm.trans hget
  split at hlink
  · next hkey =>
    cases hlink
    subst hkey
    exact ⟨by decide, by simp [barn, find?, List.lookup], by decide⟩
  · cases hlink

/-- Another file of that folder is made, and linked under its name. -/
theorem keepsStep_barn :
    (target? cellarCreation).isSome = true ∧ barnDesk.world.site.files.IsTree ∧
    barnDesk.agent.scope = .folder (pathOf ["p"]) ∧
    barnDesk.world.site.files.Leads (pathOf ["p"]).normalize ["p"] ∧
    InStep barnPlaces ["p"] barnDesk.world.nextNumber barnDesk.world.site.files
      barnDesk.agent.children ∧
    ¬ Refused cellarProject cellarCreation barnDesk ∧
    KeepsStep cellarProject cellarCreation barnDesk ["p"] barnPlaces := by
  have fine : ¬ Refused cellarProject cellarCreation barnDesk :=
    not_refused_of_isOk (by decide +kernel)
  have hown : ownEntry cellarProject barnDesk.world.site barnDesk.agent ⟨"b.py", false⟩ =
      .ok ("b.py", ⟨"/p/b.py"⟩) := by decide +kernel
  have hnone : (barn.entryAt? ⟨"/p/b.py"⟩).isNone = true := by decide +kernel
  refine ⟨rfl, barn_isTree, rfl, barn_leads, barn_inStep, fine,
    (keepsStep_iff rfl barn_isTree rfl barn_leads barn_inStep).mpr (Or.inr ?_)⟩
  refine aligned_of_trimmed (by simp) rfl barn_leads (fun t entry htarget h => ?_)
    fun t content entry path link hcreate h hlink => ?_
  · obtain rfl := Option.some.inj htarget
    exact trim_entryName (by decide) h
  · cases hcreate
    cases hown.symm.trans h
    change barn.entryAt? _ = _ at hlink
    rw [hlink] at hnone
    cases hnone

/-- The file, with a blank and a slash behind its name. -/
def barnDeletion : Directive .manager := .delete ⟨"a.py /", false⟩

/-- **The file of an agent at work is removed:** the agent is sought under the name with the blank, and
neither found to be busy nor let go. -/
theorem barn_left_linked :
    InStep barnPlaces ["p"] barnDesk.world.nextNumber barnDesk.world.site.files
      barnDesk.agent.children ∧
    ¬ Refused cellarProject barnDeletion barnDesk ∧
    Vanishes barn (interpret cellarProject barnDeletion barnDesk).2.world.site.files ["p"] "a.py" ∧
    barnDesk.agent.children.get? "a.py" = some ⟨⟨2⟩, .coder⟩ ∧
    (⟨2⟩, "one") ∈ barnDesk.agent.delegated ∧
    (interpret cellarProject barnDeletion barnDesk).2.agent.children = barnDesk.agent.children ∧
    (interpret cellarProject barnDeletion barnDesk).1 = [] ∧
    ¬ KeepsStep cellarProject barnDeletion barnDesk ["p"] barnPlaces := by
  have fine : ¬ Refused cellarProject barnDeletion barnDesk :=
    not_refused_of_isOk (by decide +kernel)
  have there : (barn.find? ["p", "a.py"]).isSome = true := by decide +kernel
  have gone : ((interpret cellarProject barnDeletion barnDesk).2.world.site.files.find?
      ["p", "a.py"]).isNone = true := by decide +kernel
  have vanishes : Vanishes barn
      (interpret cellarProject barnDeletion barnDesk).2.world.site.files ["p"] "a.py" :=
    ⟨Option.isSome_iff_ne_none.mp there, Option.isNone_iff_eq_none.mp gone⟩
  have linked : barnDesk.agent.children.get? "a.py" = some ⟨⟨2⟩, .coder⟩ := rfl
  refine ⟨barn_inStep, fine, vanishes, linked, List.mem_singleton.mpr rfl, by decide +kernel,
    by decide +kernel, fun keeps => ?_⟩
  exact (keeps.removed fine "a.py" vanishes _ linked).1 _ (List.mem_singleton.mpr rfl) rfl

end Arbor.Turn
