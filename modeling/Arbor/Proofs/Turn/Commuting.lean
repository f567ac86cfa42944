import Arbor.Proofs.Agreement
import Arbor.Proofs.Turn.Confinement

/-! # Turns in disjoint scopes commute

Managers and coders change the files at once, each within its own scope, and the engine may let them
take their turns in any order. Where neither scope lies within the other, the order makes no
difference but for the identities that are given out on the way.

* `LooksAlike`: worlds that an agent of a scope cannot tell apart. `perform_same`: in two of them a
  directive of the agent comes to the same, but for new identities, and leaves them alike.
* `Contained`: nothing but the files of the scope and the next number is changed.
  `perform_contained`: a directive of an agent of the scope is contained.
* `turns_commute`: from the two, whichever of two agents of disjoint scopes goes first, both end in
  the same states with the same follow-ups and effects, and leave the same files. -/

namespace Arbor

open FileSystem

/-- The world in which the next new identity has the given number. -/
def World.numbered (w : World) (n : Nat) : World := { w with nextNumber := n }

namespace Turn

open Directive Act

variable {project : Project} {home scope other : Location} {files : FileSystem} {a b : Agent}
  {d : Desk} {w w' : World} {k l : Dialect}

/-- **The agent is a manager or a coder of a scope** in the project. -/
structure AnswersFor (home : Location) (a : Agent) (scope : Location) : Prop where
  named : scope.Named
  inside : home <+: scope
  office : a.kind = .manager ∧ a.scope = .folder (pathOf scope) ∨
    a.kind = .coder ∧ a.scope = .file (pathOf scope)

/-- The directive works on the agent's own part of the project or with its children: CHANGE, CREATE,
DELETE, UPDATE_README, DELEGATE or WAIT of a manager or a coder. -/
def Local : {k : Dialect} → Directive k → Prop
  | _, .change _ | _, .create _ _ | _, .delete _ | _, .updateReadme _ | _, .assign _ | _, .wait =>
    True
  | _, _ => False

namespace AnswersFor

theorem file (h : AnswersFor home a scope) {path : Path} (hp : a.scope.file? = some path) :
    path = pathOf scope := by
  rcases h.office with ⟨-, hs⟩ | ⟨-, hs⟩ <;> rw [hs] at hp <;> cases hp
  rfl

theorem folder (h : AnswersFor home a scope) {path : Path} (hp : a.scope.folder? = some path) :
    a.scope = .folder (pathOf scope) := by
  rcases h.office with ⟨-, hs⟩ | ⟨-, hs⟩
  · exact hs
  · rw [hs] at hp
    cases hp

theorem notes (h : AnswersFor home a scope) {path : Path} (hp : a.docPath? project = some path) :
    path = pathOf (scope ++ [Project.docName scope]) := by
  rcases h.office with ⟨hk, hs⟩ | ⟨hk, hs⟩ <;> rw [Agent.docPath?, hk, hs] at hp <;> cases hp
  exact Project.docPath_pathOf h.named

/-- What a target means to the agent is an entry directly in its scope. -/
theorem entry (h : AnswersFor home a scope) (below : scope ≠ []) {site : Site} {t : Target}
    {name : String} {path : Path} (ho : ownEntry project site a t = .ok (name, path)) :
    ∃ e, Location.Named (scope ++ [e]) ∧ path = pathOf (scope ++ [e]) := by
  have hfolder : ∃ dir, a.scope.folder? = some dir := by
    cases hf : a.scope.folder? with
    | some dir => exact ⟨dir, rfl⟩
    | none =>
      simp only [ownEntry, hf] at ho
      cases ho
  obtain ⟨dir, hdir⟩ := hfolder
  rcases ownEntry_cases h.named (h.folder hdir) ho with ⟨e, he, hp⟩ | ⟨hnil, -⟩
  · exact ⟨e, h.named.concat he, hp⟩
  · exact absurd hnil below

end AnswersFor

/-! ### New identities -/

/-- Numbers from `n` on, counted from `n'` on instead. -/
def shifted (n n' i : Nat) : Nat := if i < n then i else i - n + n'

theorem shifted_old {n n' i : Nat} (old : i < n) : shifted n n' i = i := if_pos old

theorem shifted_new (n n' i : Nat) : shifted n n' (n + i) = n' + i := by
  rw [shifted, if_neg (by omega)]
  omega

/-- The link to an agent with another number. -/
def renumbered (ρ : Nat → Nat) (link : ChildLink) : ChildLink :=
  { link with id := ⟨ρ link.id.number⟩ }

/-- The agent with its children under other numbers. -/
def withNumbers (ρ : Nat → Nat) (a : Agent) : Agent :=
  { a with children := a.children.map fun c => (c.1, renumbered ρ c.2) }

/-- The effect with another number for the agent or the task that is new by it. -/
def effectWithNumbers (ρ : Nat → Nat) : Effect → Effect
  | .delegate child task => .delegate child { task with id := ⟨ρ task.id.number⟩ }
  | .spawn id kind prompt scratch => .spawn ⟨ρ id.number⟩ kind prompt scratch
  | .adopt id kind path => .adopt ⟨ρ id.number⟩ kind path
  | .release child => .release child
  | .finish ending => .finish ending

/-- The numbers from the given one on are new to the agent: its children have numbers below. -/
def KnowsBelow (n : Nat) (a : Agent) : Prop := ∀ c ∈ a.children, c.2.id.number < n

variable {n n' : Nat}

theorem children_old (known : KnowsBelow n a) (n' : Nat) :
    (a.children.map fun c => (c.1, renumbered (shifted n n') c.2)) = a.children := by
  refine (List.map_congr_left fun c hc => ?_).trans (List.map_id _)
  rw [renumbered, shifted_old (known c hc)]
  rfl

theorem withNumbers_old (known : KnowsBelow n a) (n' : Nat) :
    withNumbers (shifted n n') a = a := by
  rw [withNumbers, children_old known]

/-- A new child has its new number. -/
theorem withNumbers_withChild (known : KnowsBelow n a) (n' : Nat) (entry : String) (kind : Kind) :
    withNumbers (shifted n n') (withChild a entry ⟨n⟩ kind) = withChild a entry ⟨n'⟩ kind := by
  have hnew : shifted n n' n = n' := shifted_new n n' 0
  rw [withNumbers, withChild, withChild, Table.map_put, children_old known, renumbered, hnew]

/-- Tasks that are handed out are numbered one after the other. -/
theorem tasksFrom_withNumbers (n n' : Nat) (orders : List (AgentId × String)) (i : Nat) :
    (tasksFrom (n + i) orders).map (effectWithNumbers (shifted n n')) =
      tasksFrom (n' + i) orders := by
  induction orders generalizing i with
  | nil => rfl
  | cons order rest ih =>
    obtain ⟨child, prompt⟩ := order
    simp only [tasksFrom, List.map_cons, effectWithNumbers, shifted_new]
    rw [Nat.add_assoc, ih, Nat.add_assoc]

/-! ### Worlds that look alike -/

/-- The worlds differ in the files and in the next number only. -/
def SameRest (w w' : World) : Prop :=
  ∀ files n, (w'.withFiles files).numbered n = (w.withFiles files).numbered n

/-- **From the scope the worlds look alike:** the files agree there and on the way there, and
nothing else differs but the numbers of the next identities. -/
structure LooksAlike (scope : Location) (n n' : Nat) (w w' : World) : Prop where
  files : Agree scope w.site.files w'.site.files
  rest : SameRest w w'
  number : w.nextNumber = n
  number' : w'.nextNumber = n'

namespace LooksAlike

/-- What is kept as scratch is the same. -/
theorem ownEntry (h : LooksAlike scope n n' w w') (a : Agent) (t : Target) :
    Turn.ownEntry project w'.site a t = Turn.ownEntry project w.site a t := by
  have hscratch := congrArg (fun v : World => v.site.scratch) (h.rest w.site.files 0)
  change w'.site.scratch = w.site.scratch at hscratch
  have hin : ∀ p, w'.site.isScratch p = w.site.isScratch p := fun p => by
    rw [Site.isScratch, Site.isScratch, hscratch]
  simp only [Turn.ownEntry, hin]

theorem withFiles {files' : FileSystem} (h : LooksAlike scope n n' w w')
    (agree : Agree scope files files') :
    LooksAlike scope n n' (w.withFiles files) (w'.withFiles files') :=
  ⟨agree, h.rest, h.number, h.number'⟩

end LooksAlike

/-- **The part of a turn came to the same** in two worlds: the same value, and worlds that look
alike again. The agent is as before, and no number was given out. -/
inductive SamePart {α : Type} (scope : Location) (n n' : Nat) (a : Agent) :
    Except AgentError α × Desk → Except AgentError α × Desk → Prop where
  | mk (r : Except AgentError α) {w w' : World} (alike : LooksAlike scope n n' w w') :
      SamePart scope n n' a (r, ⟨a, w⟩) (r, ⟨a, w'⟩)

/-- **The directive came to the same** in two worlds, but for the numbers of what is new. -/
structure SameOutcome (scope : Location) (ρ : Nat → Nat)
    (out out' : Except AgentError Step × Desk) : Prop where
  outcome : out'.1 = out.1.map fun step => ⟨step.followUp, step.effects.map (effectWithNumbers ρ)⟩
  agent : out'.2.agent = withNumbers ρ out.2.agent
  files : Agree scope out.2.world.site.files out'.2.world.site.files

/-- One part after another. -/
theorem SamePart.bind {α β : Type} {x : Act α} {f f' : α → Act β} {d d' : Desk}
    {R : Except AgentError β × Desk → Except AgentError β × Desk → Prop}
    (hx : SamePart scope n n' a (x.run d) (x.run d'))
    (refused : ∀ e {w w'}, LooksAlike scope n n' w w' → R (.error e, ⟨a, w⟩) (.error e, ⟨a, w'⟩))
    (more : ∀ r {w w'}, x.run d = (.ok r, ⟨a, w⟩) → LooksAlike scope n n' w w' →
      R ((f r).run ⟨a, w⟩) ((f' r).run ⟨a, w'⟩)) :
    R ((x >>= f).run d) ((x >>= f').run d') := by
  rw [run_bind, run_bind]
  generalize hrun : (x.run d : Except AgentError α × Desk) = out at hx
  generalize (x.run d' : Except AgentError α × Desk) = out' at hx
  obtain ⟨r, alike⟩ := hx
  cases r with
  | error e => exact refused e alike
  | ok r => exact more r hrun alike

/-- A file operation that ends alike. -/
theorem SamePart.onFiles {f : FileSystem → Except OsError FileSystem} (action path : String)
    (alike : LooksAlike scope n n' w w') (ends : Alike scope (f w.site.files) (f w'.site.files)) :
    SamePart scope n n' a ((Act.onFiles action path f).run ⟨a, w⟩)
      ((Act.onFiles action path f).run ⟨a, w'⟩) := by
  rw [run_onFiles, run_onFiles]
  dsimp only
  generalize f w.site.files = r at ends
  generalize f w'.site.files = r' at ends
  cases ends with
  | refused e => exact .mk _ alike
  | done agree => exact .mk (.ok ()) (alike.withFiles agree)

/-- What asks nothing of others. -/
theorem LooksAlike.quiet (alike : LooksAlike scope n n' w w') (known : KnowsBelow n a)
    (r : Except AgentError Step) (silent : effectsOf r = []) :
    SameOutcome scope (shifted n n') (r, ⟨a, w⟩) (r, ⟨a, w'⟩) := by
  refine ⟨?_, (withNumbers_old known n').symm, alike.files⟩
  cases r with
  | error e => rfl
  | ok step =>
    have hsilent : step.effects = [] := silent
    simp only [Except.map, hsilent, List.map_nil]
    rw [← hsilent]

theorem SamePart.outcome {out out' : Except AgentError Step × Desk}
    (h : SamePart scope n n' a out out') (known : KnowsBelow n a) (silent : effectsOf out.1 = []) :
    SameOutcome scope (shifted n n') out out' := by
  obtain ⟨r, alike⟩ := h
  exact alike.quiet known r silent

/-- The agent of a new entry is linked and asked for. -/
theorem adopt_same (known : KnowsBelow n a) (alike : LooksAlike scope n n' w w') (entry : String)
    (kind : Kind) (note : String) (path : Path) :
    let adopt : Act Step := do
      let id ← Act.freshAgent
      Act.modifyAgent fun a =>
        { a with children := a.children.put entry { id := id, kind := kind } }
      return ⟨.succeeded note, [.adopt id kind path]⟩
    SameOutcome scope (shifted n n') (adopt.run ⟨a, w⟩) (adopt.run ⟨a, w'⟩) := by
  intro adopt
  have hrun : ∀ v : World, adopt.run ⟨a, v⟩ =
      (.ok ⟨.succeeded note, [.adopt ⟨v.nextNumber⟩ kind path]⟩,
        ⟨withChild a entry ⟨v.nextNumber⟩ kind, v.numbered (v.nextNumber + 1)⟩) := fun _ => rfl
  have hnew : shifted n n' n = n' := shifted_new n n' 0
  rw [hrun, hrun, alike.number, alike.number']
  refine ⟨?_, (withNumbers_withChild known n' entry kind).symm, alike.files⟩
  simp only [Except.map, List.map_cons, List.map_nil, effectWithNumbers, hnew]

section Same

variable (h : AnswersFor home a scope) (grounded : project.Grounded w.site.files home)
  (alike : LooksAlike scope n n' w w') (known : KnowsBelow n a)
include h grounded alike

theorem overwrite_same {loc : Location} (content : String) (inside : scope <+: loc)
    (hn : loc.Named) :
    SamePart scope n n' a ((overwrite project (pathOf loc) content).run ⟨a, w⟩)
      ((overwrite project (pathOf loc) content).run ⟨a, w'⟩) := by
  have hc := grounded.clear_inside (h.inside.trans inside)
  exact .bind (.onFiles _ _ alike (alike.files.writeText inside hn hc content))
    (fun _ _ _ alike' => .mk _ alike') fun _ _ _ _ alike' => .mk _ alike'

theorem change_same (content : String) :
    SamePart scope n n' a ((change project content).run ⟨a, w⟩)
      ((change project content).run ⟨a, w'⟩) := by
  simp only [change, run_bind, run_get]
  cases hf : a.scope.file? with
  | none => exact .mk _ alike
  | some file =>
    rw [h.file hf]
    exact overwrite_same h grounded alike content List.prefix_rfl h.named

theorem writeDoc_same (content : String) :
    SamePart scope n n' a ((writeDoc project content).run ⟨a, w⟩)
      ((writeDoc project content).run ⟨a, w'⟩) := by
  simp only [writeDoc, run_bind, run_get]
  cases hf : a.docPath? project with
  | none => exact .mk _ alike
  | some doc =>
    rw [h.notes hf]
    exact overwrite_same h grounded alike content (List.prefix_append _ _)
      (h.named.concat (Project.isName_docName h.named))

/-- A folder is made, with its notes. -/
theorem makeFolder_same {loc : Location} (name : String) (inside : scope <+: loc) (hn : loc.Named) :
    SamePart scope n n' a ((Turn.makeFolder name (pathOf loc)).run ⟨a, w⟩)
      ((Turn.makeFolder name (pathOf loc)).run ⟨a, w'⟩) := by
  have hin := h.inside.trans inside
  have hc := grounded.clear_inside hin
  refine .bind (.onFiles _ _ alike (alike.files.makeFolder inside hn hc))
    (fun _ _ _ alike' => .mk _ alike') fun _ v _ hmade alike' => ?_
  refine .onFiles _ _ alike' (alike'.files.ensureDoc inside hn ?_)
  rw [run_onFiles] at hmade
  dsimp only at hmade
  cases hm : w.site.files.makeFolder (pathOf loc) with
  | error error =>
    rw [hm] at hmade
    cases hmade
  | ok made =>
    rw [hm] at hmade
    cases hmade
    exact (grounded.edit (edit_makeFolder hn hc hm)).clear_inside
      (hin.trans (List.prefix_append loc _))

include known

theorem create_same (below : scope ≠ []) (t : Target) (content : Option String) :
    SameOutcome scope (shifted n n') ((create project t content).run ⟨a, w⟩)
      ((create project t content).run ⟨a, w'⟩) := by
  simp only [create, run_bind, run_get, run_lift, alike.ownEntry]
  cases ho : ownEntry project w.site a t with
  | error e => exact alike.quiet known _ rfl
  | ok named =>
    obtain ⟨entry, path⟩ := named
    obtain ⟨e, hn, rfl⟩ := h.entry below ho
    have inside : scope <+: scope ++ [e] := List.prefix_append scope [e]
    have hc := grounded.clear_inside (h.inside.trans inside)
    simp only [alike.files.exists? inside hn hc]
    by_cases hp : w.site.files.exists? (pathOf (scope ++ [e])) || (a.children.get? entry).isSome
    · rw [if_pos hp]
      exact alike.quiet known _ rfl
    rw [if_neg hp]
    by_cases hf : t.isFolder && content.isSome
    · rw [if_pos hf]
      exact alike.quiet known _ rfl
    rw [if_neg hf]
    by_cases ht : t.isFolder = true
    · simp only [if_pos ht]
      exact SamePart.bind (makeFolder_same h grounded alike t.name inside hn)
        (fun _ _ _ alike' => alike'.quiet known _ rfl)
        fun _ _ _ _ alike' => adopt_same known alike' entry _ _ _
    · simp only [if_neg ht]
      exact SamePart.bind (.onFiles _ _ alike (alike.files.writeText inside hn hc _))
        (fun _ _ _ alike' => alike'.quiet known _ rfl)
        fun _ _ _ _ alike' => adopt_same known alike' entry _ _ _

theorem delete_same (below : scope ≠ []) (t : Target) :
    SameOutcome scope (shifted n n') ((delete project t).run ⟨a, w⟩)
      ((delete project t).run ⟨a, w'⟩) := by
  simp only [delete, run_bind, run_get, run_lift, alike.ownEntry]
  cases ho : ownEntry project w.site a t with
  | error e => exact alike.quiet known _ rfl
  | ok named =>
    obtain ⟨entry, path⟩ := named
    obtain ⟨e, hn, rfl⟩ := h.entry below ho
    have inside : scope <+: scope ++ [e] := List.prefix_append scope [e]
    have hc := grounded.clear_inside (h.inside.trans inside)
    simp only [alike.files.exists? inside hn hc, alike.files.isFolder inside hn hc]
    by_cases hp : (!w.site.files.exists? (pathOf (scope ++ [e]))) = true
    · rw [if_pos hp]
      exact alike.quiet known _ rfl
    rw [if_neg hp]
    by_cases ht : (t.isFolder != w.site.files.isFolder (pathOf (scope ++ [e]))) = true
    · rw [if_pos ht]
      exact alike.quiet known _ rfl
    rw [if_neg ht]
    by_cases hb : ((a.children.get? entry).any fun link =>
        a.delegated.any fun x => x.1 = link.id) = true
    · rw [if_pos hb]
      exact alike.quiet known _ rfl
    rw [if_neg hb]
    have hremoved : Alike scope
        (if t.isFolder then w.site.files.removeFolder (pathOf (scope ++ [e]))
          else w.site.files.removeFile (pathOf (scope ++ [e])))
        (if t.isFolder then w'.site.files.removeFolder (pathOf (scope ++ [e]))
          else w'.site.files.removeFile (pathOf (scope ++ [e]))) := by
      split
      · exact alike.files.removeFolder inside hn hc
      · exact alike.files.removeFile inside hn hc
    refine SamePart.bind (.onFiles _ _ alike hremoved)
      (fun _ _ _ alike' => alike'.quiet known _ rfl) fun _ _ _ _ alike' => ?_
    cases a.children.get? entry with
    | none => exact alike'.quiet known _ rfl
    | some link =>
      -- a child that goes takes its number along
      have hknown : KnowsBelow n { a with children := a.children.drop entry } :=
        fun c hc => known c (List.mem_of_mem_filter hc)
      exact ⟨rfl, (withNumbers_old hknown n').symm, alike'.files⟩

end Same

/-- Handing out prompts changes the agent in the same way in every world, but not its children. -/
theorem handedOut_agent (orders : List (AgentId × String)) (a : Agent) (w w' : World) :
    (handedOut orders ⟨a, w'⟩).agent = (handedOut orders ⟨a, w⟩).agent ∧
      (handedOut orders ⟨a, w⟩).agent.children = a.children := by
  induction orders generalizing a w w' with
  | nil => exact ⟨rfl, rfl⟩
  | cons order rest ih =>
    obtain ⟨child, prompt⟩ := order
    exact ih (a.delegate child prompt) _ _

theorem assign_same (alike : LooksAlike scope n n' w w') (known : KnowsBelow n a)
    (assignments : List (Target × String)) :
    SameOutcome scope (shifted n n') ((assign assignments).run ⟨a, w⟩)
      ((assign assignments).run ⟨a, w'⟩) := by
  simp only [assign, run_bind, run_get, run_lift]
  cases assignments.mapM (fun x => childOf a x.1) with
  | error e => exact alike.quiet known _ rfl
  | ok children =>
    simp only [handOut_run]
    generalize (children.map Prod.snd).zip (assignments.map Prod.snd) = orders
    obtain ⟨hagent, hchildren⟩ := handedOut_agent orders a w w'
    have hknown : KnowsBelow n (handedOut orders ⟨a, w⟩).agent := by
      rw [KnowsBelow, hchildren]
      exact known
    have htasks : tasksFrom n' orders =
        (tasksFrom n orders).map (effectWithNumbers (shifted n n')) :=
      (tasksFrom_withNumbers n n' orders 0).symm
    have hfiles : Agree scope (handedOut orders ⟨a, w⟩).world.site.files
        (handedOut orders ⟨a, w'⟩).world.site.files := by
      rw [(handedOut_still _ _).1, (handedOut_still _ _).1]
      exact alike.files
    refine ⟨?_, hagent.trans (withNumbers_old hknown n').symm, hfiles⟩
    rw [alike.number, alike.number', htasks]
    rfl

theorem wait_same (alike : LooksAlike scope n n' w w') :
    SamePart scope n n' a (wait.run ⟨a, w⟩) (wait.run ⟨a, w'⟩) := by
  simp only [wait, run_bind, run_get]
  by_cases hw : a.hasActiveWork = true
  · rw [if_pos hw]
    exact .mk _ alike
  · rw [if_neg hw]
    exact .mk _ alike

/-- **A directive comes to the same** in worlds that look alike from the scope of its agent. -/
theorem perform_same (h : AnswersFor home a scope) (grounded : project.Grounded w.site.files home)
    (alike : LooksAlike scope n n' w w') (known : KnowsBelow n a) (below : scope ≠ [])
    (x : Directive k) (isLocal : Local x) :
    SameOutcome scope (shifted n n') ((perform project x).run ⟨a, w⟩)
      ((perform project x).run ⟨a, w'⟩) := by
  cases x with
  | change content =>
    have silent : effectsOf ((change project content).run ⟨a, w⟩).1 = [] := by
      rcases change_cases project content ⟨a, w⟩ with ⟨e, hrun⟩ | ⟨_, _, _, -, -, hrun⟩ <;>
        rw [hrun] <;> rfl
    exact (change_same h grounded alike content).outcome known silent
  | updateReadme content =>
    have silent : effectsOf ((writeDoc project content).run ⟨a, w⟩).1 = [] := by
      rcases writeDoc_cases project content ⟨a, w⟩ with ⟨e, hrun⟩ | ⟨_, _, _, -, -, hrun⟩ <;>
        rw [hrun] <;> rfl
    exact (writeDoc_same h grounded alike content).outcome known silent
  | create t content => exact create_same h grounded alike known below t content
  | delete t => exact delete_same h grounded alike known below t
  | assign assignments => exact assign_same alike known assignments
  | wait =>
    have silent : effectsOf (wait.run ⟨a, w⟩).1 = [] := by
      rcases wait_cases ⟨a, w⟩ with ⟨-, hrun⟩ | ⟨-, hrun⟩ <;> rw [hrun] <;> rfl
    exact (wait_same alike).outcome known silent
  | _ => cases isLocal

/-! ### What a turn does to the world -/

/-- **Only the files of the scope were changed,** and numbers given out. -/
structure Contained (scope : Location) (w w' : World) : Prop where
  edit : Edit (scope <+: ·) w.site.files w'.site.files
  rest : SameRest w w'

theorem Contained.refl (scope : Location) (w : World) : Contained scope w w :=
  ⟨Edit.refl _ _, fun _ _ => rfl⟩

/-- Other files are put in the place of the old ones, and some numbers are given out. -/
theorem contained_withFiles (edit : Edit (scope <+: ·) w.site.files files) (n : Nat) :
    Contained scope w ((w.withFiles files).numbered n) := ⟨edit, fun _ _ => rfl⟩

/-- An entry of the scope was changed, alone or with what is below it. -/
theorem contained_entry {e : String} {whole : Prop}
    (edit : Edit (fun loc => loc = scope ++ [e] ∨ whole ∧ scope ++ [e] <+: loc) w.site.files files)
    (n : Nat) : Contained scope w ((w.withFiles files).numbered n) := by
  have inside : scope <+: scope ++ [e] := List.prefix_append scope [e]
  refine contained_withFiles (edit.mono fun loc hloc => ?_) n
  rcases hloc with rfl | ⟨-, hloc⟩
  · exact inside
  · exact inside.trans hloc

theorem handedOut_world (orders : List (AgentId × String)) (d : Desk) :
    ∃ n, (handedOut orders d).world = d.world.numbered n := by
  induction orders generalizing d with
  | nil => exact ⟨d.world.nextNumber, rfl⟩
  | cons order rest ih =>
    obtain ⟨child, prompt⟩ := order
    exact ih _

section Contained

variable (h : AnswersFor home d.agent scope) (grounded : project.Grounded d.world.site.files home)
include h grounded

theorem written_contained {loc : Location} {text : String} (inside : scope <+: loc)
    (hn : loc.Named) (hw : d.world.site.files.writeText (pathOf loc) text = .ok files) :
    Contained scope d.world (d.world.withFiles files) := by
  have hedit := edit_writeText hn (grounded.clear_inside (h.inside.trans inside)) hw
  exact contained_withFiles (hedit.mono fun l hl => hl ▸ inside) d.world.nextNumber

theorem created_contained (below : scope ≠ []) {t : Target} {out : Except AgentError Step × Desk}
    (creation : Creation project t d out) : Contained scope d.world out.2.world := by
  cases creation with
  | refused e => exact .refl _ _
  | noteless error own absent isFolder make =>
    obtain ⟨e, hn, rfl⟩ := h.entry below own
    have inside : scope <+: scope ++ [e] := List.prefix_append scope [e]
    have hedit := edit_makeFolder hn (grounded.clear_inside (h.inside.trans inside)) make
    exact contained_withFiles (hedit.mono fun loc hloc => hloc ▸ inside) d.world.nextNumber
  | made note own absent free entryMade =>
    obtain ⟨e, hn, rfl⟩ := h.entry below own
    have hin := h.inside.trans (List.prefix_append scope [e])
    exact contained_entry (edit_entryMade grounded hn hin entryMade) _

theorem removed_contained (below : scope ≠ []) {t : Target} {entry : String} {path : Path}
    (own : ownEntry project d.world.site d.agent t = .ok (entry, path))
    (gone : EntryRemoved d.world.site.files t path files) :
    Contained scope d.world (d.world.withFiles files) := by
  obtain ⟨e, hn, rfl⟩ := h.entry below own
  have hin := h.inside.trans (List.prefix_append scope [e])
  exact contained_entry (edit_entryRemoved grounded hn hin gone) d.world.nextNumber

theorem deleted_contained (below : scope ≠ []) {t : Target} {out : Except AgentError Step × Desk}
    (deletion : Deletion project t d out) : Contained scope d.world out.2.world := by
  cases deletion with
  | refused e => exact .refl _ _
  | unlinked note own present type gone noChild => exact removed_contained h grounded below own gone
  | linked note own present type gone child idle =>
    exact removed_contained h grounded below own gone

/-- **A directive is contained** in the scope of its agent. -/
theorem perform_contained (below : scope ≠ []) (x : Directive k) (isLocal : Local x) :
    Contained scope d.world ((perform project x).run d).2.world := by
  cases x with
  | change content =>
    rcases change_cases project content d with ⟨e, hrun⟩ | ⟨file, files, note, hf, hw, hrun⟩
    · exact hrun ▸ .refl _ _
    · rw [h.file hf] at hw
      exact hrun ▸ written_contained h grounded List.prefix_rfl h.named hw
  | updateReadme content =>
    rcases writeDoc_cases project content d with ⟨e, hrun⟩ | ⟨doc, files, note, hd, hw, hrun⟩
    · exact hrun ▸ .refl _ _
    · rw [h.notes hd] at hw
      exact hrun ▸ written_contained h grounded (List.prefix_append _ _)
        (h.named.concat (Project.isName_docName h.named)) hw
  | create t content => exact created_contained h grounded below (create_run project t content d)
  | delete t => exact deleted_contained h grounded below (delete_run project t d)
  | assign assignments =>
    rcases assign_cases assignments d with ⟨e, hrun⟩ | ⟨children, note, -, hrun⟩
    · exact hrun ▸ .refl _ _
    · obtain ⟨n, hworld⟩ := handedOut_world
        ((children.map Prod.snd).zip (assignments.map Prod.snd)) d
      have hcontained : Contained scope d.world (handedOut
          ((children.map Prod.snd).zip (assignments.map Prod.snd)) d).world := by
        rw [hworld]
        exact contained_withFiles (Edit.refl _ _) n
      exact hrun ▸ hcontained
  | wait =>
    rcases wait_cases d with ⟨-, hrun⟩ | ⟨-, hrun⟩ <;> exact hrun ▸ .refl _ _
  | _ => cases isLocal

end Contained

/-! ### Turns -/

/-- What comes of a turn. -/
structure Aftermath where
  agent : Agent
  /-- The prompt that the verb left on the queue of the agent, if it left one. -/
  followUp : Option String
  effects : List Effect
  world : World

/-- **An agent's turn,** in which what is new is numbered from the given number on. From the number
that the world has in store it is the turn that the engine carries out. -/
def turn (project : Project) (x : Directive k) (a : Agent) (n : Nat) (w : World) : Aftermath :=
  let desk : Desk := { agent := a, world := w.numbered n }
  let after := interpret project x desk
  { agent := after.2.agent
    followUp := followUpPrompt? x.verb ((perform project x).run desk).1
    effects := after.1
    world := after.2.world }

/-- **The turns came to the same** for the agent and for the engine, but for the numbers of what is
new. -/
structure Aftermath.Same (ρ : Nat → Nat) (t t' : Aftermath) : Prop where
  agent : t'.agent = withNumbers ρ t.agent
  followUp : t'.followUp = t.followUp
  effects : t'.effects = t.effects.map (effectWithNumbers ρ)

/-- **The worlds are the same:** the same stands everywhere in the file system, and nothing else
differs but the number of the next identity. -/
structure SameWorld (w w' : World) : Prop where
  files : ∀ loc, w'.site.files.find? loc = w.site.files.find? loc
  rest : SameRest w w'

/-- A turn is contained in the scope of its agent. -/
theorem turn_contained (h : AnswersFor home a scope) (grounded : project.Grounded w.site.files home)
    (below : scope ≠ []) (x : Directive k) (isLocal : Local x) (n : Nat) :
    Contained scope w (turn project x a n w).world := by
  have hcontained : Contained scope (w.numbered n) (turn project x a n w).world :=
    perform_contained (d := ⟨a, w.numbered n⟩) h grounded below x isLocal
  exact ⟨hcontained.edit, hcontained.rest⟩

theorem followUpPrompt?_map (verb : Verb) (r : Except AgentError Step)
    (f : List Effect → List Effect) :
    followUpPrompt? verb (r.map fun step => ⟨step.followUp, f step.effects⟩) =
      followUpPrompt? verb r := by
  cases r with
  | error e => rfl
  | ok step =>
    obtain ⟨followUp, effects⟩ := step
    cases followUp <;> rfl

/-- **A turn does not depend** on what is changed beside the scope of its agent. -/
theorem turn_same (h : AnswersFor home a scope) (grounded : project.Grounded w.site.files home)
    (known : KnowsBelow n a) (below : scope ≠ []) (x : Directive k) (isLocal : Local x) (n' : Nat)
    (agree : Agree scope w.site.files w'.site.files) (rest : SameRest w w') :
    (turn project x a n w).Same (shifted n n') (turn project x a n' w') ∧
      Agree scope (turn project x a n w).world.site.files
        (turn project x a n' w').world.site.files := by
  have alike : LooksAlike scope n n' (w.numbered n) (w'.numbered n') := ⟨agree, rest, rfl, rfl⟩
  have hsame := perform_same (w := w.numbered n) h grounded alike known below x isLocal
  simp only [turn, interpret]
  generalize ((perform project x).run ⟨a, w.numbered n⟩ : Except AgentError Step × Desk) = out
    at hsame
  generalize ((perform project x).run ⟨a, w'.numbered n'⟩ : Except AgentError Step × Desk) = out'
    at hsame
  obtain ⟨r, after⟩ := out
  obtain ⟨r', after'⟩ := out'
  obtain ⟨houtcome, hagent, hfiles⟩ := hsame
  dsimp only at houtcome hagent hfiles ⊢
  have hprompt : followUpPrompt? x.verb r' = followUpPrompt? x.verb r := by
    rw [houtcome]
    exact followUpPrompt?_map _ _ _
  refine ⟨⟨?_, hprompt, ?_⟩, hfiles⟩
  · dsimp only
    rw [hprompt, hagent]
    cases followUpPrompt? x.verb r <;> rfl
  · dsimp only
    rw [houtcome]
    cases r <;> rfl

/-- **Turns in disjoint scopes commute.** Take two managers or coders of scopes in a project without
links, neither of which lies within the other, in any state, and for each a directive that works on
its own part of the project, whether it succeeds or not. Whoever goes first, both agents end in the
same states, with the same follow-ups and the same effects, and the files are the same. All of this
is up to the choice of new identities: the two turns take them from `n` and `m` on in the one order
and from `n'` and `m'` on in the other. -/
theorem turns_commute (grounded : project.Grounded w.site.files home)
    (first : AnswersFor home a scope) (second : AnswersFor home b other)
    (beside : ¬ scope <+: other) (beside' : ¬ other <+: scope)
    (x : Directive k) (hx : Local x) (y : Directive l) (hy : Local y) {n m : Nat}
    (fresh : KnowsBelow n a) (fresh' : KnowsBelow m b) (n' m' : Nat) :
    let one := turn project x a n w
    let two := turn project y b m one.world
    let two' := turn project y b m' w
    let one' := turn project x a n' two'.world
    one.Same (shifted n n') one' ∧ two.Same (shifted m m') two' ∧
      SameWorld two.world one'.world := by
  intro one two two' one'
  have hscope : scope ≠ [] := fun he => beside (he ▸ List.nil_prefix)
  have hother : other ≠ [] := fun he => beside' (he ▸ List.nil_prefix)
  -- what each of the four turns changes
  have hone : Contained scope w one.world := turn_contained first grounded hscope x hx n
  have htwo' : Contained other w two'.world := turn_contained second grounded hother y hy m'
  have htwo : Contained other one.world two.world :=
    turn_contained second (grounded.edit hone.edit) hother y hy m
  have hone' : Contained scope two'.world one'.world :=
    turn_contained first (grounded.edit htwo'.edit) hscope x hx n'
  -- what it does not depend on
  obtain ⟨hsame, hagree⟩ := turn_same first grounded fresh hscope x hx n'
    (.of_edit htwo'.edit beside' beside) htwo'.rest
  obtain ⟨hsame', hagree'⟩ := turn_same second (grounded.edit hone.edit) fresh' hother y hy m'
    (Agree.of_edit hone.edit beside beside').symm fun files i => (hone.rest files i).symm
  refine ⟨hsame, hsame', ⟨fun loc => ?_, fun files i => ?_⟩⟩
  · by_cases hs : scope <+: loc
    · have ho : ¬ other <+: loc := fun ho =>
        (List.prefix_or_prefix_of_prefix hs ho).elim beside beside'
      exact (hagree loc (Or.inr hs)).symm.trans (htwo.edit.same loc ho).symm
    · by_cases ho : other <+: loc
      · exact (hone'.edit.same loc hs).trans (hagree' loc (Or.inr ho)).symm
      · calc one'.world.site.files.find? loc
          _ = two'.world.site.files.find? loc := hone'.edit.same loc hs
          _ = w.site.files.find? loc := htwo'.edit.same loc ho
          _ = one.world.site.files.find? loc := (hone.edit.same loc hs).symm
          _ = two.world.site.files.find? loc := (htwo.edit.same loc ho).symm
  · exact ((hone'.rest files i).trans (htwo'.rest files i)).trans
      ((htwo.rest files i).trans (hone.rest files i)).symm

/-- The coder of the file `/p/main.py`. -/
def cellarCoder : Agent := .fresh ⟨2⟩ .coder "main.py" (.file (pathOf ["p", "main.py"])) none 0

/-- Whether the manager of the folder makes an entry first or the coder writes its file. -/
theorem turns_commute_cellar :
    cellarProject.Grounded cellarDesk.world.site.files ["p"] ∧
    AnswersFor ["p"] cellarDesk.agent ["p", "sub"] ∧
    AnswersFor ["p"] cellarCoder ["p", "main.py"] ∧
    ¬ ["p", "sub"] <+: ["p", "main.py"] ∧ ¬ ["p", "main.py"] <+: ["p", "sub"] ∧
    Local (.create ⟨"b.py", false⟩ none) ∧ Local (.change "print(1)") ∧
    KnowsBelow 3 cellarDesk.agent ∧ KnowsBelow 4 cellarCoder ∧
    let one := turn cellarProject (.create ⟨"b.py", false⟩ none) cellarDesk.agent 3 cellarDesk.world
    let two := turn cellarProject (.change "print(1)") cellarCoder 4 one.world
    let two' := turn cellarProject (.change "print(1)") cellarCoder 3 cellarDesk.world
    let one' := turn cellarProject (.create ⟨"b.py", false⟩ none) cellarDesk.agent 4 two'.world
    one.Same (shifted 3 4) one' ∧ two.Same (shifted 4 3) two' ∧
      SameWorld two.world one'.world := by
  have hlinks : ∀ loc t, cellar.find? loc ≠ some (.link t) :=
    ne_link_of_forall (by simp [cellar])
  have htree : cellar.IsTree := isTree_of_forall (by simp [cellar, find?, List.lookup])
  have hg : cellarProject.Grounded cellarDesk.world.site.files ["p"] :=
    ⟨rfl, by decide, fun part _ => hlinks part, fun loc _ => hlinks loc, htree⟩
  have ha : AnswersFor ["p"] cellarDesk.agent ["p", "sub"] :=
    ⟨by decide, by decide, Or.inl ⟨rfl, rfl⟩⟩
  have hb : AnswersFor ["p"] cellarCoder ["p", "main.py"] :=
    ⟨by decide, by decide, Or.inr ⟨rfl, rfl⟩⟩
  have beside : ¬ ["p", "sub"] <+: ["p", "main.py"] := by decide
  have beside' : ¬ ["p", "main.py"] <+: ["p", "sub"] := by decide
  have hfresh : KnowsBelow 3 cellarDesk.agent := fun _ hc => by cases hc
  have hfresh' : KnowsBelow 4 cellarCoder := fun _ hc => by cases hc
  exact ⟨hg, ha, hb, beside, beside', trivial, trivial, hfresh, hfresh',
    turns_commute hg ha hb beside beside' (.create ⟨"b.py", false⟩ none) trivial
      (.change "print(1)") trivial hfresh hfresh' 4 3⟩

end Turn

end Arbor
