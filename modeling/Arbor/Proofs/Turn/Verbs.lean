import Arbor.Proofs.Outcome
import Arbor.Proofs.Turn.Act
import Arbor.Turn.Interpret

/-! # What each verb can do

For every verb one lemma lists all that carrying it out can lead to: which refusals leave the desk
as it was, and what a success leaves of the agent and the world. Everything else about a turn is
derived from these lists.

* `create_creating`, `create_run`, `delete_run`: the verbs that change entries of a folder.
* `spawnAll_cons`, `spawnAll_run`: helpers are started one after the other, each from the desk that
  the last one left.
* `handOut_run`: handing out prompts gives one task to each child in turn.
* `perform_performed`: all that a directive can lead to, in one list. -/

namespace Arbor.Turn

open Directive Act

variable {project : Project} {d : Desk}

/-- The desk with activity recorded. -/
def touched (d : Desk) : Desk := { d with agent := d.agent.touch d.world.now }

/-- The desk from which a verb is carried out that records the master's activity first. -/
def readied (k : Dialect) (d : Desk) : Desk := if k = .master then touched d else d

theorem touchFirst_run (k : Dialect) (d : Desk) : (touchFirst k).run d = (.ok (), readied k d) := by
  unfold touchFirst readied
  split <;> rfl

/-! ### Files that the agent owns -/

theorem overwrite_cases (project : Project) (path : Path) (content : String) (d : Desk) :
    (∃ e, (overwrite project path content).run d = (.error e, d)) ∨
    ∃ files note, d.world.site.files.writeText path content = .ok files ∧
      (overwrite project path content).run d =
        (.ok (.succeeded note), { d with world := d.world.withFiles files }) := by
  simp only [overwrite, run_bind, run_onFiles]
  cases hw : d.world.site.files.writeText path content with
  | error e => exact Or.inl ⟨_, rfl⟩
  | ok files => exact Or.inr ⟨files, _, rfl, rfl⟩

theorem change_cases (project : Project) (content : String) (d : Desk) :
    (∃ e, (change project content).run d = (.error e, d)) ∨
    ∃ file files note, d.agent.scope.file? = some file ∧
      d.world.site.files.writeText file content = .ok files ∧
      (change project content).run d =
        (.ok (.succeeded note), { d with world := d.world.withFiles files }) := by
  simp only [change, run_bind, run_get]
  cases hf : d.agent.scope.file? with
  | none => exact Or.inl ⟨_, rfl⟩
  | some file =>
    rcases overwrite_cases project file content d with h | ⟨files, note, hw, h⟩
    · exact Or.inl h
    · exact Or.inr ⟨file, files, note, rfl, hw, h⟩

theorem writeDoc_cases (project : Project) (content : String) (d : Desk) :
    (∃ e, (writeDoc project content).run d = (.error e, d)) ∨
    ∃ doc files note, d.agent.docPath? project = some doc ∧
      d.world.site.files.writeText doc content = .ok files ∧
      (writeDoc project content).run d =
        (.ok (.succeeded note), { d with world := d.world.withFiles files }) := by
  simp only [writeDoc, run_bind, run_get]
  cases hf : d.agent.docPath? project with
  | none => exact Or.inl ⟨_, rfl⟩
  | some doc =>
    rcases overwrite_cases project doc content d with h | ⟨files, note, hw, h⟩
    · exact Or.inl h
    · exact Or.inr ⟨doc, files, note, rfl, hw, h⟩

/-! ### Entries of a folder -/

/-- The agent with the link to a new entry. -/
def withChild (a : Agent) (entry : String) (id : AgentId) (kind : Kind) : Agent :=
  { a with children := a.children.put entry { id := id, kind := kind } }

/-- The kind of the agent of a target. -/
def targetKind (t : Target) : Kind := if t.isFolder then .manager else .coder

/-- The first operation: the folder, or the whole file. -/
def firstMade (fs : FileSystem) (t : Target) (content : Option String) (path : Path) :
    Except OsError FileSystem :=
  if t.isFolder then fs.makeFolder path else fs.writeText path (content.getD "")

/-- **Making an entry begins:** all checks are passed, and the first operation succeeds. -/
structure Begins (project : Project) (t : Target) (content : Option String) (d : Desk)
    (entry : String) (path : Path) (made : FileSystem) : Prop where
  own : ownEntry project d.world.site d.agent t = .ok (entry, path)
  absent : d.world.site.files.exists? path = false
  free : d.agent.children.get? entry = none
  contentless : t.isFolder = true → content = none
  first : firstMade d.world.site.files t content path = .ok made

theorem Begins.unique {t : Target} {content : Option String} {entry entry' : String}
    {path path' : Path} {made made' : FileSystem}
    (h : Begins project t content d entry path made)
    (h' : Begins project t content d entry' path' made') : path' = path := by
  cases h.own.symm.trans h'.own
  rfl

/-- Nothing begins where what the target means cannot be made. -/
theorem not_begins {t : Target} {content : Option String} {entry : String} {path : Path}
    (own : ownEntry project d.world.site d.agent t = .ok (entry, path))
    (fails : d.world.site.files.exists? path = false → d.agent.children.get? entry = none →
      (t.isFolder = true → content = none) →
      ∀ made, firstMade d.world.site.files t content path ≠ .ok made) :
    ∀ entry path made, ¬ Begins project t content d entry path made := by
  intro entry' path' made begins
  cases own.symm.trans begins.own
  exact fails begins.absent begins.free begins.contentless made begins.first

/-- What making an entry comes to. -/
inductive Creating (project : Project) (t : Target) (content : Option String) (d : Desk) :
    Except AgentError Step × Desk → Prop where
  /-- Nothing is changed. -/
  | refused (e : AgentError)
      (never : ∀ entry path made, ¬ Begins project t content d entry path made) :
      Creating project t content d (.error e, d)
  /-- A folder is made that cannot be given notes. -/
  | noteless {entry : String} {path : Path} {made : FileSystem} (e : OsError)
      (begins : Begins project t content d entry path made) (isFolder : t.isFolder = true)
      (notes : Project.ensureDoc made path = .error e) :
      Creating project t content d (.error (.io "create doc file for" t.name (.os e)),
        { d with world := d.world.withFiles made })
  /-- The entry is made and linked, and its agent is asked for. -/
  | done {entry : String} {path : Path} {made files : FileSystem} (note : String)
      (begins : Begins project t content d entry path made)
      (second : (if t.isFolder then Project.ensureDoc made path else .ok made) = .ok files) :
      Creating project t content d
        (.ok ⟨.succeeded note, [.adopt ⟨d.world.nextNumber⟩ (targetKind t) path]⟩,
          { agent := withChild d.agent entry ⟨d.world.nextNumber⟩ (targetKind t)
            world := { d.world.withFiles files with nextNumber := d.world.nextNumber + 1 } })

/-- **What making an entry comes to,** step by step. -/
theorem create_creating (project : Project) (t : Target) (content : Option String) (d : Desk) :
    Creating project t content d ((create project t content).run d) := by
  simp only [create, run_bind, run_get, run_lift]
  cases ho : ownEntry project d.world.site d.agent t with
  | error e => exact .refused e fun _ _ _ h => by cases ho.symm.trans h.own
  | ok named =>
    obtain ⟨entry, path⟩ := named
    simp only
    by_cases hp : d.world.site.files.exists? path || (d.agent.children.get? entry).isSome
    · rw [if_pos hp]
      refine .refused _ (not_begins ho fun absent free => ?_)
      rw [absent, free] at hp
      cases hp
    rw [if_neg hp]
    simp only [Bool.or_eq_true, not_or, Bool.not_eq_true, Option.isSome_eq_false_iff,
      Option.isNone_iff_eq_none] at hp
    by_cases hc : t.isFolder && content.isSome
    · rw [if_pos hc]
      refine .refused _ (not_begins ho fun _ _ contentless => ?_)
      obtain ⟨hfolder, hsome⟩ := Bool.and_eq_true_iff.mp hc
      rw [contentless hfolder] at hsome
      cases hsome
    rw [if_neg hc]
    have hcontentless : t.isFolder = true → content = none := by
      intro hf
      simpa [hf] using hc
    by_cases hf : t.isFolder = true
    · have hfirst : firstMade d.world.site.files t content path =
          d.world.site.files.makeFolder path := if_pos hf
      simp only [if_pos hf, makeFolder, run_bind, run_onFiles]
      cases hm : d.world.site.files.makeFolder path with
      | error e =>
        refine .refused _ (not_begins ho fun _ _ _ made h => ?_)
        cases (hfirst.trans hm).symm.trans h
      | ok made =>
        have begins : Begins project t content d entry path made :=
          ⟨ho, hp.1, hp.2, hcontentless, hfirst.trans hm⟩
        simp only [World.withFiles]
        cases hn : Project.ensureDoc made path with
        | error e => exact .noteless e begins hf hn
        | ok files =>
          have h : Creating project t content d _ := .done ("created " ++ t.print) begins
            (by rw [if_pos hf]; exact hn)
          rw [targetKind, if_pos hf] at h
          exact h
    · have hfirst : firstMade d.world.site.files t content path =
          d.world.site.files.writeText path (content.getD "") := if_neg hf
      simp only [if_neg hf, run_bind, run_onFiles]
      cases hw : d.world.site.files.writeText path (content.getD "") with
      | error e =>
        refine .refused _ (not_begins ho fun _ _ _ made h => ?_)
        cases (hfirst.trans hw).symm.trans h
      | ok made =>
        have begins : Begins project t content d entry path made :=
          ⟨ho, hp.1, hp.2, hcontentless, hfirst.trans hw⟩
        have h : Creating project t content d _ := .done ("created " ++ t.print) begins
          (by rw [if_neg hf])
        rw [targetKind, if_neg hf] at h
        exact h

/-- The files after an entry was made: with an empty folder and its notes, or with a new file. -/
inductive EntryMade (fs : FileSystem) (t : Target) (path : Path) : FileSystem → Prop where
  | folder {made files : FileSystem} (isFolder : t.isFolder = true)
      (make : fs.makeFolder path = .ok made) (notes : Project.ensureDoc made path = .ok files) :
      EntryMade fs t path files
  | file {files : FileSystem} {text : String} (isFile : t.isFolder = false)
      (write : fs.writeText path text = .ok files) : EntryMade fs t path files

/-- What making an entry can lead to. -/
inductive Creation (project : Project) (t : Target) (d : Desk) :
    Except AgentError Step × Desk → Prop where
  /-- Nothing is changed. -/
  | refused (e : AgentError) : Creation project t d (.error e, d)
  /-- A folder is made that cannot be given notes. -/
  | noteless {entry : String} {path : Path} {files : FileSystem} (e : OsError)
      (own : ownEntry project d.world.site d.agent t = .ok (entry, path))
      (absent : d.world.site.files.exists? path = false)
      (isFolder : t.isFolder = true) (make : d.world.site.files.makeFolder path = .ok files) :
      Creation project t d (.error (.io "create doc file for" t.name (.os e)),
        { d with world := d.world.withFiles files })
  /-- The entry is made and linked, and its agent is asked for. -/
  | made {entry : String} {path : Path} {files : FileSystem} (note : String)
      (own : ownEntry project d.world.site d.agent t = .ok (entry, path))
      (absent : d.world.site.files.exists? path = false)
      (free : d.agent.children.get? entry = none)
      (entryMade : EntryMade d.world.site.files t path files) :
      Creation project t d
        (.ok ⟨.succeeded note, [.adopt ⟨d.world.nextNumber⟩ (targetKind t) path]⟩,
          { agent := withChild d.agent entry ⟨d.world.nextNumber⟩ (targetKind t)
            world := { d.world.withFiles files with nextNumber := d.world.nextNumber + 1 } })

/-- **What making an entry can do.** -/
theorem create_run (project : Project) (t : Target) (content : Option String) (d : Desk) :
    Creation project t d ((create project t content).run d) := by
  have hcreating := create_creating project t content d
  generalize ((create project t content).run d : Except AgentError Step × Desk) = out at hcreating
  cases hcreating with
  | refused e never => exact .refused e
  | noteless e begins isFolder notes =>
    have make := begins.first
    rw [firstMade, if_pos isFolder] at make
    exact .noteless e begins.own begins.absent isFolder make
  | done note begins second =>
    refine .made note begins.own begins.absent begins.free ?_
    have first := begins.first
    rw [firstMade] at first
    split at first
    · next isFolder =>
      rw [if_pos isFolder] at second
      exact .folder isFolder first second
    · next isFile =>
      rw [if_neg isFile] at second
      cases second
      exact .file (by simpa using isFile) first

/-- The files after an entry was removed. -/
def EntryRemoved (fs : FileSystem) (t : Target) (path : Path) (files : FileSystem) : Prop :=
  (if t.isFolder then fs.removeFolder path else fs.removeFile path) = .ok files

/-- What removing an entry can lead to. -/
inductive Deletion (project : Project) (t : Target) (d : Desk) :
    Except AgentError Step × Desk → Prop where
  /-- Nothing is changed. -/
  | refused (e : AgentError) : Deletion project t d (.error e, d)
  /-- The entry had no agent. -/
  | unlinked {entry : String} {path : Path} {files : FileSystem} (note : String)
      (own : ownEntry project d.world.site d.agent t = .ok (entry, path))
      (present : d.world.site.files.exists? path = true)
      (type : t.isFolder = d.world.site.files.isFolder path)
      (removed : EntryRemoved d.world.site.files t path files)
      (noChild : d.agent.children.get? entry = none) :
      Deletion project t d (.ok (.succeeded note), { d with world := d.world.withFiles files })
  /-- The entry had an agent, which did not work for its manager and is let go. -/
  | linked {entry : String} {path : Path} {files : FileSystem} {link : ChildLink} (note : String)
      (own : ownEntry project d.world.site d.agent t = .ok (entry, path))
      (present : d.world.site.files.exists? path = true)
      (type : t.isFolder = d.world.site.files.isFolder path)
      (removed : EntryRemoved d.world.site.files t path files)
      (child : d.agent.children.get? entry = some link)
      (idle : ∀ x ∈ d.agent.delegated, x.1 ≠ link.id) :
      Deletion project t d (.ok ⟨.succeeded note, [.release link.id]⟩,
        { agent := { d.agent with children := d.agent.children.drop entry }
          world := d.world.withFiles files })

/-- **What removing an entry can do.** -/
theorem delete_run (project : Project) (t : Target) (d : Desk) :
    Deletion project t d ((delete project t).run d) := by
  simp only [delete, run_bind, run_get, run_lift]
  cases ho : ownEntry project d.world.site d.agent t with
  | error e => exact .refused e
  | ok named =>
    obtain ⟨entry, path⟩ := named
    simp only
    by_cases hp : (!d.world.site.files.exists? path) = true
    · rw [if_pos hp]
      exact .refused _
    rw [if_neg hp]
    have hpresent : d.world.site.files.exists? path = true := by simpa using hp
    by_cases ht : (t.isFolder != d.world.site.files.isFolder path) = true
    · rw [if_pos ht]
      exact .refused _
    rw [if_neg ht]
    have htype : t.isFolder = d.world.site.files.isFolder path := by simpa using ht
    by_cases hb : ((d.agent.children.get? entry).any fun link =>
        d.agent.delegated.any fun x => x.1 = link.id) = true
    · rw [if_pos hb]
      exact .refused _
    rw [if_neg hb]
    simp only [run_bind, run_onFiles]
    cases hr : (if t.isFolder then d.world.site.files.removeFolder path
        else d.world.site.files.removeFile path) with
    | error e => exact .refused _
    | ok files =>
      cases hl : d.agent.children.get? entry with
      | none => exact .unlinked _ ho hpresent htype hr hl
      | some link =>
        refine .linked _ ho hpresent htype hr hl fun x hx he => hb ?_
        simp only [hl, Option.any_some, List.any_eq_true, decide_eq_true_eq]
        exact ⟨x, hx, he⟩

/-! ### Helpers -/

/-- The file that a coder's helpers share. -/
def sharedPath? (project : Project) (d : Desk) : Option Path :=
  match d.agent.scratch, d.agent.scope.file? with
  | some scratch, _ => some scratch.path
  | none, some file => some (project.coderScratch d.world.site file)
  | none, none => none

/-- The world in which a path is claimed as scratch, over other files. -/
def claimed (w : World) (files : FileSystem) (path : Path) : World :=
  { w with site := { w.site with files := files }.claim path }

/-- How a helper comes by its scratch file. -/
inductive ScratchTaken (project : Project) (d : Desk) : Scratch → Desk → Prop where
  /-- The helpers of a coder share a file, which the coder owns. -/
  | shared {path : Path} {files : FileSystem} (isCoder : d.agent.kind = .coder)
      (shares : sharedPath? project d = some path)
      (write : (d.world.site.files.exists? path = true ∧ files = d.world.site.files) ∨
        (d.world.site.files.exists? path = false ∧
          d.world.site.files.writeText path "" = .ok files)) :
      ScratchTaken project d { path := path, owned := false }
        { agent := { d.agent with scratch := some { path := path, owned := true } }
          world := claimed d.world files path }
  /-- Any other agent's helper gets a numbered file of its own. -/
  | numbered {files : FileSystem} (notCoder : d.agent.kind ≠ .coder)
      (write : d.world.site.files.writeText
        (project.nextScratch d.world.site (d.agent.baseDir project)) "" = .ok files) :
      ScratchTaken project d
        { path := project.nextScratch d.world.site (d.agent.baseDir project), owned := true }
        { d with world :=
            claimed d.world files (project.nextScratch d.world.site (d.agent.baseDir project)) }

/-- What making a scratch file can lead to. -/
inductive ScratchSought (project : Project) (d : Desk) : Except AgentError Scratch × Desk → Prop where
  | refused (e : AgentError) : ScratchSought project d (.error e, d)
  | taken {scratch : Scratch} {d' : Desk} (taken : ScratchTaken project d scratch d') :
      ScratchSought project d (.ok scratch, d')

/-- Once the shared path is known, the file is made where it is absent, and claimed. -/
theorem share_run {path : Path} (hk : d.agent.kind = .coder) (hp : sharedPath? project d = some path) :
    ScratchSought project d ((do
      if !d.world.site.files.exists? path then
        Act.onFiles "create" (project.displayName path) fun fs => fs.writeText path ""
      Act.modifyWorld fun w => { w with site := w.site.claim path }
      Act.modifyAgent fun a => { a with scratch := some { path := path, owned := true } }
      return { path := path, owned := false } : Act Scratch).run d) := by
  by_cases he : d.world.site.files.exists? path = true
  · simp only [he]
    exact .taken (.shared hk hp (Or.inl ⟨he, rfl⟩))
  · have he' : d.world.site.files.exists? path = false := by simpa using he
    simp only [he', Bool.not_false, if_true, run_bind, run_onFiles]
    cases hw : d.world.site.files.writeText path "" with
    | error e => exact .refused _
    | ok files => exact .taken (.shared hk hp (Or.inr ⟨he', hw⟩))

theorem sharedScratch_run (hk : d.agent.kind = .coder) :
    ScratchSought project d ((sharedScratch project).run d) := by
  simp only [sharedScratch, run_bind, run_get]
  cases hs : d.agent.scratch with
  | some scratch =>
    have hp : sharedPath? project d = some scratch.path := by simp only [sharedPath?, hs]
    simp only [run_bind, run_pure]
    exact share_run hk hp
  | none =>
    cases hf : d.agent.scope.file? with
    | some file =>
      have hp : sharedPath? project d = some (project.coderScratch d.world.site file) := by
        simp only [sharedPath?, hs, hf]
      simp only [run_bind, run_pure]
      exact share_run hk hp
    | none => exact .refused _

theorem privateScratch_run (hk : d.agent.kind ≠ .coder) :
    ScratchSought project d ((privateScratch project).run d) := by
  simp only [privateScratch, run_bind, run_get, run_onFiles]
  cases hw : d.world.site.files.writeText
      (project.nextScratch d.world.site (d.agent.baseDir project)) "" with
  | error e => exact .refused _
  | ok files => exact .taken (.numbered hk hw)

/-- The scratch file for the next helper, and the desk that making it leaves. -/
def seekScratch (project : Project) (d : Desk) : Except AgentError Scratch × Desk :=
  (if d.agent.kind = .coder then sharedScratch project else privateScratch project).run d

theorem seekScratch_sought (project : Project) (d : Desk) :
    ScratchSought project d (seekScratch project d) := by
  unfold seekScratch
  by_cases hk : d.agent.kind = .coder
  · rw [if_pos hk]
    exact sharedScratch_run hk
  · rw [if_neg hk]
    exact privateScratch_run hk

/-- The desk with the identity of a new helper. -/
def hire (d : Desk) : Desk where
  agent := { d.agent with helpers := d.agent.helpers ++ [⟨d.world.nextNumber⟩] }
  world := { d.world with nextNumber := d.world.nextNumber + 1 }

/-- **One helper, and then the rest:** nothing of the first is taken back if a later one fails. -/
theorem spawnAll_cons (project : Project) (order : HelperOrder) (rest : List HelperOrder)
    (d : Desk) :
    (spawnAll project (order :: rest)).run d = match seekScratch project d with
      | (.error e, d') => (.error e, d')
      | (.ok scratch, d') =>
        (((spawnAll project rest).run (hire d')).1.map
            (.spawn ⟨d'.world.nextNumber⟩ order.kind order.prompt scratch :: ·),
          ((spawnAll project rest).run (hire d')).2) := by
  cases hseek : seekScratch project d with
  | mk sought d' =>
    rw [spawnAll, run_bind, run_get]
    unfold seekScratch at hseek
    by_cases hk : d.agent.kind = .coder
    -- both ways to a scratch file go on alike
    all_goals
      simp only [hk, if_true, if_false] at hseek ⊢
      rw [run_bind, hseek]
      cases sought with
      | error e => rfl
      | ok scratch =>
        simp only [run_bind, run_freshAgent, run_modifyAgent]
        rw [← hire]
        generalize ((spawnAll project rest).run (hire d') :
          Except AgentError (List Effect) × Desk) = more
        obtain ⟨outcome, after⟩ := more
        cases outcome <;> rfl

/-- How helpers are started one after the other. -/
inductive Spawning (project : Project) :
    List HelperOrder → Desk → Except AgentError (List Effect) × Desk → Prop where
  | done (d : Desk) : Spawning project [] d (.ok [], d)
  | refused (order : HelperOrder) (rest : List HelperOrder) (d : Desk) (e : AgentError) :
      Spawning project (order :: rest) d (.error e, d)
  | next {order : HelperOrder} {rest : List HelperOrder} {d d' after : Desk} {scratch : Scratch}
      {r : Except AgentError (List Effect)} (taken : ScratchTaken project d scratch d')
      (more : Spawning project rest (hire d') (r, after)) :
      Spawning project (order :: rest) d
        (r.map (.spawn ⟨d'.world.nextNumber⟩ order.kind order.prompt scratch :: ·), after)

theorem ScratchTaken.agent {d' : Desk} {scratch : Scratch} (h : ScratchTaken project d scratch d') :
    ∃ own, d'.agent = { d.agent with scratch := own } := by
  cases h <;> exact ⟨_, rfl⟩

/-- Starting helpers changes nothing of the agent but its scratch file and its list of helpers. -/
theorem Spawning.agent {orders : List HelperOrder} {out : Except AgentError (List Effect) × Desk}
    (h : Spawning project orders d out) :
    ∃ own helpers, out.2.agent = { d.agent with scratch := own, helpers := helpers } := by
  induction h with
  | done d => exact ⟨_, _, rfl⟩
  | refused order rest d e => exact ⟨_, _, rfl⟩
  | next taken more ih =>
    obtain ⟨own, hagent⟩ := taken.agent
    obtain ⟨own', helpers, hafter⟩ := ih
    exact ⟨own', helpers, by rw [hafter, hire, hagent]⟩

/-- **What starting helpers can do.** -/
theorem spawnAll_run (project : Project) (orders : List HelperOrder) (d : Desk) :
    Spawning project orders d ((spawnAll project orders).run d) := by
  induction orders generalizing d with
  | nil => exact .done d
  | cons order rest ih =>
    have hsought := seekScratch_sought project d
    rw [spawnAll_cons]
    generalize seekScratch project d = sought at hsought
    cases hsought with
    | refused e => exact .refused order rest d e
    | taken taken => exact .next taken (ih _)

theorem spawn_cases (project : Project) (orders : List HelperOrder) (d : Desk) :
    (spawn project orders).run d = (.error .helperSpawns, d) ∧ d.agent.kind.isHelper = true ∨
    d.agent.kind.isHelper = false ∧ ∃ r after, Spawning project orders d (r, after) ∧
      (spawn project orders).run d = (r.map fun effects =>
        ⟨.succeeded ("spawned " ++ Nat.repr effects.length ++ " agent(s)"), effects⟩, after) := by
  simp only [spawn, run_bind, run_get]
  cases hk : d.agent.kind.isHelper with
  | true => exact Or.inl ⟨rfl, rfl⟩
  | false =>
    refine Or.inr ⟨rfl, ?_⟩
    have h := spawnAll_run project orders d
    simp only [Bool.false_eq_true, if_false, run_bind, run_pure]
    cases hr : ((spawnAll project orders).run d : Except AgentError (List Effect) × Desk) with
    | mk r after =>
      rw [hr] at h
      refine ⟨r, after, h, ?_⟩
      cases r <;> rfl

/-! ### Reading, running and asking -/

theorem read_cases (project : Project) (targets : List Target) (d : Desk) :
    (∃ e, (read project targets).run d = (.error e, d)) ∨
    ∃ memory note, (read project targets).run d =
      (.ok (.succeeded note), { d with agent := { d.agent with memory := memory } }) := by
  simp only [read, run_bind, run_get, run_lift, run_modifyAgent]
  cases targets.mapM (locate project d.world.site.files (d.agent.baseDir project)) with
  | error e => exact Or.inl ⟨e, rfl⟩
  | ok paths => exact Or.inr ⟨_, _, rfl⟩

/-- A command leaves a note or a refusal, and nothing of the agent changes. -/
theorem run_cases (project : Project) (command : String) (d : Desk) :
    (∃ e, (run project command).run d = (.error e, d)) ∨
    ∃ r, (run project command).run d =
        (r, { d with world := (d.world.execute command (d.agent.baseDir project)).2 }) ∧
      ∀ step, r = .ok step → step.effects = [] := by
  unfold run
  cases project.config.policy.check command with
  | error e => exact Or.inl ⟨_, rfl⟩
  | ok _ =>
    simp only [run_bind, run_get, run_execute]
    refine Or.inr ?_
    cases (d.world.execute command (d.agent.baseDir project)).1 with
    | error text => exact ⟨_, rfl, fun _ h => by cases h⟩
    | ok output =>
      simp only
      split
      · exact ⟨_, rfl, fun _ h => by cases h; rfl⟩
      · exact ⟨_, rfl, fun _ h => by cases h⟩

theorem wait_cases (d : Desk) :
    (d.agent.hasActiveWork = true ∧ wait.run d = (.ok .silent, d)) ∨
    (d.agent.hasActiveWork = false ∧ wait.run d = (.error .nothingToWaitFor, d)) := by
  simp only [wait, run_bind, run_get]
  cases d.agent.hasActiveWork with
  | true => exact Or.inl ⟨rfl, rfl⟩
  | false => exact Or.inr ⟨rfl, rfl⟩

/-- The desk after a question was put. -/
def questioned (d : Desk) (question : String) : Desk :=
  { d with world := (d.world.ask question).2 }

theorem message_cases (question : String) (d : Desk) :
    (∃ e, (message question).run d = (.error e, questioned d question)) ∨
    ∃ note, (message question).run d =
      (.ok (.succeeded note), touched (questioned d question)) := by
  simp only [message, run_bind, run_ask, run_touch]
  cases (d.world.ask question).1 with
  | error text => exact Or.inl ⟨_, rfl⟩
  | ok reply => exact Or.inr ⟨_, rfl⟩

/-! ### Handing on work -/

/-- The desk after prompts were handed to children in turn. -/
def handedOut : List (AgentId × String) → Desk → Desk
  | [], d => d
  | (child, prompt) :: rest, d => handedOut rest
      { agent := d.agent.delegate child prompt
        world := { d.world with nextNumber := d.world.nextNumber + 1 } }

/-- Handing out prompts changes nothing of the agent but who works for it. -/
theorem handedOut_delegated (orders : List (AgentId × String)) (d : Desk) :
    ∃ delegated, (handedOut orders d).agent = { d.agent with delegated := delegated } := by
  induction orders generalizing d with
  | nil => exact ⟨_, rfl⟩
  | cons order rest ih =>
    obtain ⟨delegated, h⟩ := ih { agent := d.agent.delegate order.1 order.2
                                  world := { d.world with nextNumber := d.world.nextNumber + 1 } }
    exact ⟨delegated, h⟩

/-- The tasks that are handed to children in turn, numbered from `n` on. -/
def tasksFrom : Nat → List (AgentId × String) → List Effect
  | _, [] => []
  | n, (child, prompt) :: rest => .delegate child ⟨⟨n⟩, prompt⟩ :: tasksFrom (n + 1) rest

/-- **Handing out prompts** always goes well. -/
theorem handOut_run (orders : List (AgentId × String)) (d : Desk) :
    (handOut orders).run d = (.ok (tasksFrom d.world.nextNumber orders), handedOut orders d) := by
  induction orders generalizing d with
  | nil => rfl
  | cons order rest ih =>
    obtain ⟨child, prompt⟩ := order
    simp only [handOut, run_bind, run_modifyAgent, run_freshTask, ih]
    rfl

theorem assign_cases (assignments : List (Target × String)) (d : Desk) :
    (∃ e, (assign assignments).run d = (.error e, d)) ∨
    ∃ children note,
      assignments.mapM (fun x => childOf d.agent x.1) = .ok children ∧
      (assign assignments).run d =
        (.ok ⟨.succeeded note, tasksFrom d.world.nextNumber
            ((children.map Prod.snd).zip (assignments.map Prod.snd))⟩,
          handedOut ((children.map Prod.snd).zip (assignments.map Prod.snd)) d) := by
  simp only [assign, run_bind, run_get, run_lift]
  cases assignments.mapM (fun x => childOf d.agent x.1) with
  | error e => exact Or.inl ⟨e, rfl⟩
  | ok children =>
    simp only [handOut_run]
    exact Or.inr ⟨children, _, rfl, rfl⟩

theorem delegateToRoot_cases (prompt : String) (d : Desk) :
    (∃ e, (delegateToRoot prompt).run d = (.error e, d)) ∨
    ∃ entry root rest note, d.agent.children = (entry, root) :: rest ∧
      (delegateToRoot prompt).run d =
        (.ok ⟨.succeeded note, tasksFrom d.world.nextNumber [(root.id, prompt)]⟩,
          handedOut [(root.id, prompt)] d) := by
  simp only [delegateToRoot, run_bind, run_get]
  cases hc : d.agent.children with
  | nil => exact Or.inl ⟨_, rfl⟩
  | cons child rest =>
    obtain ⟨entry, root⟩ := child
    simp only [run_bind, handOut_run]
    exact Or.inr ⟨entry, root, rest, _, rfl, rfl⟩

/-! ### Ending a task -/

/-- How an agent reports that its task is done. -/
def doneEnding (a : Agent) (payload : String) : Ending :=
  { task := a.task, origin := a.origin, success := true, payload := payload }

theorem endTask_cases (payload : String) (d : Desk) :
    (∃ e, d.agent.busy? = some e ∧ (endTask payload).run d = (.error e, d)) ∨
    (d.agent.busy? = none ∧ (endTask payload).run d =
      (.ok ⟨.silent, [.finish (doneEnding d.agent payload)]⟩,
        { d with agent := d.agent.retire })) := by
  simp only [endTask, run_bind, run_get, Agent.deactivate]
  cases d.agent.busy? with
  | some e => exact Or.inl ⟨e, rfl, rfl⟩
  | none => exact Or.inr ⟨rfl, rfl⟩

/-- Letting go of a scratch file takes it from the agent, and removes at most that file. -/
theorem releaseScratch_cases (a : Agent) (site : Site) :
    (releaseScratch a site).1 = { a with scratch := none } ∧
    ((releaseScratch a site).2.files = site.files ∨
      ∃ path, a.scratch = some { path := path, owned := true } ∧
        site.files.removeFile path = .ok (releaseScratch a site).2.files) := by
  unfold releaseScratch
  cases hs : a.scratch with
  | none => exact ⟨rfl, Or.inl rfl⟩
  | some scratch =>
    obtain ⟨path, owned⟩ := scratch
    cases owned with
    | false => exact ⟨rfl, Or.inl rfl⟩
    | true =>
      simp only
      cases hr : site.files.removeFile path with
      | ok files => exact ⟨rfl, Or.inr ⟨path, rfl, hr⟩⟩
      | error e => cases e <;> exact ⟨rfl, Or.inl rfl⟩

/-- Which files letting go of a scratch file leaves depends on the scratch file only. -/
theorem releaseScratch_site {a b : Agent} (site : Site) (scratch : b.scratch = a.scratch) :
    (releaseScratch b site).2 = (releaseScratch a site).2 := by
  unfold releaseScratch
  rw [scratch]
  split
  · split <;> rfl
  · rfl

/-- The desk after the agent let go of its scratch file. -/
def released (d : Desk) : Desk where
  agent := (releaseScratch d.agent d.world.site).1
  world := { d.world with site := (releaseScratch d.agent d.world.site).2 }

theorem finish_cases (project : Project) (report : String) (d : Desk) :
    (∃ e, d.agent.busy? = some e ∧ (finish project report).run d = (.error e, d)) ∨
    ∃ payload, d.agent.busy? = none ∧ (finish project report).run d =
      (.ok ⟨.silent, [.finish (doneEnding d.agent payload)]⟩,
        released { d with agent := d.agent.retire }) := by
  simp only [finish, run_bind, run_get]
  rcases endTask_cases (if (Text.trimChars report.toList).isEmpty then plainReport project d.agent
    else report) d with ⟨e, hb, h⟩ | ⟨hb, h⟩
  · rw [h]
    exact Or.inl ⟨e, hb, rfl⟩
  · rw [h]
    exact Or.inr ⟨_, hb, rfl⟩

/-- What the master's report can lead to. -/
inductive MasterReport (report : String) (d : Desk) : Except AgentError Step × Desk → Prop where
  | rootActive (working : d.agent.delegated ≠ []) : MasterReport report d (.error .rootActive, d)
  | helpersActive : MasterReport report d (.error (.helpersActive d.agent.helpers.length), d)
  /-- The human cannot be asked. -/
  | unheard (text : String) : MasterReport report d (.error (.human text), questioned d report)
  /-- The human goes on with the session. -/
  | goesOn (reply : String) (idle : d.agent.busy? = none) :
      MasterReport report d (.ok ⟨.prompt reply, []⟩, touched (questioned d report))
  | ended (idle : d.agent.busy? = none) : MasterReport report d
      (.ok ⟨.silent, [.finish (doneEnding d.agent report)]⟩,
        { touched (questioned d report) with agent := (touched (questioned d report)).agent.retire })

theorem finishMaster_run (report : String) (d : Desk) :
    MasterReport report d ((finishMaster report).run d) := by
  simp only [finishMaster, run_bind, run_get]
  by_cases hd : (!d.agent.delegated.isEmpty) = true
  · rw [if_pos hd]
    exact .rootActive (by simpa using hd)
  rw [if_neg hd]
  by_cases hh : (!d.agent.helpers.isEmpty) = true
  · rw [if_pos hh]
    exact .helpersActive
  rw [if_neg hh]
  have hidle : d.agent.busy? = none := by rw [Agent.busy?, if_neg hd, if_neg hh]
  simp only [run_bind, run_ask, run_touch]
  cases (d.world.ask report).1 with
  | error text => exact .unheard _
  | ok reply =>
    simp only
    by_cases he : isSessionEnd reply = true
    · rw [if_pos he]
      rcases endTask_cases report (touched (questioned d report)) with ⟨e, hb, -⟩ | ⟨-, h⟩
      · exact absurd (hidle.symm.trans hb) (by simp)
      · change MasterReport report d ((endTask report).run (touched (questioned d report)))
        rw [h]
        exact .ended hidle
    · rw [if_neg he]
      exact .goesOn reply hidle

/-! ### Any directive -/

/-- The desk is as before, but for what was remembered, run, asked or noted as activity. -/
structure Unmoved (d d' : Desk) : Prop where
  site : d'.world.site = d.world.site
  number : d'.world.nextNumber = d.world.nextNumber
  agent : ∃ memory now, d'.agent = { d.agent with memory := memory, lastActivity := now }

theorem Unmoved.refl (d : Desk) : Unmoved d d := ⟨rfl, rfl, _, _, rfl⟩

theorem Unmoved.trans {d d' d'' : Desk} (h : Unmoved d d') (h' : Unmoved d' d'') : Unmoved d d'' := by
  obtain ⟨m, n, hm⟩ := h.agent
  obtain ⟨m', n', hm'⟩ := h'.agent
  exact ⟨h'.site.trans h.site, h'.number.trans h.number, m', n', by rw [hm', hm]⟩

theorem unmoved_readied (k : Dialect) (d : Desk) : Unmoved d (readied k d) := by
  unfold readied
  split
  · exact ⟨rfl, rfl, _, _, rfl⟩
  · exact .refl d

theorem unmoved_questioned (d : Desk) (question : String) : Unmoved d (questioned d question) :=
  ⟨rfl, rfl, _, _, rfl⟩

theorem unmoved_touched (d : Desk) : Unmoved d (touched d) := ⟨rfl, rfl, _, _, rfl⟩

/-- The agent of one of the entries. -/
def HasChild (children : Table ChildLink) (child : AgentId) : Prop :=
  ∃ entry link, children.get? entry = some link ∧ link.id = child

/-- The target of a directive that makes or removes an entry. -/
def target? {k : Dialect} : Directive k → Option Target
  | .create t _ => some t
  | .delete t => some t
  | _ => none

/-- What carrying out a directive can lead to. -/
inductive Performed (project : Project) {k : Dialect} (x : Directive k) (d : Desk) :
    Except AgentError Step × Desk → Prop where
  /-- A refusal, or a verb that concerns neither files nor other agents. -/
  | quiet {r : Except AgentError Step} {d' : Desk} (still : Unmoved d d')
      (silent : effectsOf r = []) : Performed project x d (r, d')
  /-- The agent's file or its notes are overwritten. -/
  | wrote {path : Path} {text note : String} {files : FileSystem}
      (own : d.agent.scope.file? = some path ∨ d.agent.docPath? project = some path)
      (write : d.world.site.files.writeText path text = .ok files) :
      Performed project x d (.ok (.succeeded note), { d with world := d.world.withFiles files })
  | created {t : Target} {out : Except AgentError Step × Desk} (target : target? x = some t)
      (creation : Creation project t d out) : Performed project x d out
  | deleted {t : Target} {out : Except AgentError Step × Desk} (target : target? x = some t)
      (deletion : Deletion project t d out) : Performed project x d out
  /-- Helpers are started, all of them or only the first ones. -/
  | spawned {orders : List HelperOrder} {d' after : Desk} {r : Except AgentError (List Effect)}
      {note : List Effect → String} (still : Unmoved d d')
      (notHelper : d.agent.kind.isHelper = false)
      (spawning : Spawning project orders d' (r, after)) (verb : x = .spawn orders) :
      Performed project x d (r.map fun effects => ⟨.succeeded (note effects), effects⟩, after)
  /-- Children are handed tasks. -/
  | handed {orders : List (AgentId × String)} {d' : Desk} {note : String} (still : Unmoved d d')
      (children : ∀ order ∈ orders, HasChild d.agent.children order.1) :
      Performed project x d
        (.ok ⟨.succeeded note, tasksFrom d'.world.nextNumber orders⟩, handedOut orders d')
  /-- The task ends, and the scratch file is let go. -/
  | finished {payload : String} (idle : d.agent.busy? = none) :
      Performed project x d (.ok ⟨.silent, [.finish (doneEnding d.agent payload)]⟩,
        released { d with agent := d.agent.retire })
  /-- The master's task ends. -/
  | ended {payload : String} {d' : Desk} (still : Unmoved d d') (idle : d.agent.busy? = none)
      (master : k = .master) :
      Performed project x d (.ok ⟨.silent, [.finish (doneEnding d.agent payload)]⟩,
        { d' with agent := d'.agent.retire })

theorem hasChild_of_childOf {a : Agent} {t : Target} {name : String} {id : AgentId}
    (h : childOf a t = .ok (name, id)) : HasChild a.children id := by
  unfold childOf at h
  simp only at h
  split at h
  · cases h
  · next link hl =>
    split at h
    · cases h
    · cases h
      exact ⟨_, link, hl, rfl⟩

variable {k : Dialect}

theorem performed_finish (x : Directive k) (report : String) (d : Desk) :
    Performed project x d ((finish project report).run d) := by
  rcases finish_cases project report d with ⟨e, -, h⟩ | ⟨payload, idle, h⟩
  · rw [h]; exact .quiet (.refl d) rfl
  · rw [h]; exact .finished idle

theorem performed_writeDoc (x : Directive k) (content : String) (d : Desk) :
    Performed project x d ((writeDoc project content).run d) := by
  rcases writeDoc_cases project content d with ⟨e, h⟩ | ⟨doc, files, note, hdoc, hw, h⟩
  · rw [h]; exact .quiet (.refl d) rfl
  · rw [h]; exact .wrote (Or.inr hdoc) hw

theorem performed_finishMaster (x : Directive .master) (report : String) (d : Desk) :
    Performed project x d ((finishMaster report).run d) := by
  have hasked := unmoved_questioned d report
  have htouched := hasked.trans (unmoved_touched (questioned d report))
  generalize hrun : ((finishMaster report).run d : Except AgentError Step × Desk) = out
  have h := hrun ▸ finishMaster_run report d
  cases h with
  | rootActive working => exact .quiet (.refl d) rfl
  | helpersActive => exact .quiet (.refl d) rfl
  | unheard text => exact .quiet hasked rfl
  | goesOn reply idle => exact .quiet htouched rfl
  | ended idle => exact .ended htouched idle rfl

theorem performed_assign (x : Directive k) (assignments : List (Target × String)) (d : Desk) :
    Performed project x d ((assign assignments).run d) := by
  rcases assign_cases assignments d with ⟨e, h⟩ | ⟨children, note, hc, h⟩
  · rw [h]; exact .quiet (.refl d) rfl
  · rw [h]
    refine .handed (.refl d) fun order hm => ?_
    obtain ⟨child, hchild, hid⟩ := List.mem_map.mp (List.of_mem_zip hm).1
    obtain ⟨y, -, hy⟩ := mem_of_mapM_eq_ok hc hchild
    rw [← hid]
    exact hasChild_of_childOf hy

theorem performed_delegateToRoot (x : Directive k) (prompt : String) (d : Desk) :
    Performed project x d ((delegateToRoot prompt).run (touched d)) := by
  rcases delegateToRoot_cases prompt (touched d) with ⟨e, h⟩ | ⟨entry, root, rest, note, hc, h⟩
  · rw [h]; exact .quiet (unmoved_touched d) rfl
  · rw [h]
    refine .handed (unmoved_touched d) fun order hm => ?_
    have hc' : d.agent.children = (entry, root) :: rest := hc
    rw [List.mem_singleton.mp hm]
    refine ⟨entry, root, ?_, rfl⟩
    rw [hc']
    exact List.lookup_cons_self

theorem performed_spawn (orders : List HelperOrder) (d : Desk) :
    Performed project (.spawn orders : Directive k) d
      ((spawn project orders).run (readied k d)) := by
  have hstill := unmoved_readied k d
  rcases spawn_cases project orders (readied k d) with ⟨h, -⟩ | ⟨hhelper, r, after, hs, h⟩
  · rw [h]; exact .quiet hstill rfl
  · rw [h]
    obtain ⟨memory, now, ha⟩ := hstill.agent
    rw [ha] at hhelper
    exact .spawned hstill hhelper hs rfl

theorem performed_read (x : Directive k) (targets : List Target) (d : Desk) :
    Performed project x d ((read project targets).run (readied k d)) := by
  have hstill := unmoved_readied k d
  rcases read_cases project targets (readied k d) with ⟨e, h⟩ | ⟨memory, note, h⟩
  · rw [h]; exact .quiet hstill rfl
  · rw [h]; exact .quiet (hstill.trans ⟨rfl, rfl, memory, _, rfl⟩) rfl

theorem performed_run (x : Directive k) (command : String) (d : Desk) :
    Performed project x d ((run project command).run (readied k d)) := by
  have hstill := unmoved_readied k d
  rcases run_cases project command (readied k d) with ⟨e, h⟩ | ⟨r, h, hr⟩
  · rw [h]; exact .quiet hstill rfl
  · rw [h]
    refine .quiet (hstill.trans ⟨rfl, rfl, _, _, rfl⟩) ?_
    cases r with
    | error e => rfl
    | ok step => exact hr step rfl

/-- **What any directive can do.** -/
theorem perform_performed (project : Project) (x : Directive k) (d : Desk) :
    Performed project x d ((perform project x).run d) := by
  cases x with
  | read targets =>
    rw [perform, run_bind, touchFirst_run]
    exact performed_read _ targets d
  | run command =>
    rw [perform, run_bind, touchFirst_run]
    exact performed_run _ command d
  | spawn orders =>
    rw [perform, run_bind, touchFirst_run]
    exact performed_spawn orders d
  | wait =>
    rw [perform]
    rcases wait_cases d with ⟨-, h⟩ | ⟨-, h⟩
    all_goals rw [h]; exact .quiet (.refl d) rfl
  | finish report =>
    cases k with
    | coder => exact performed_finish _ report d
    | manager => exact performed_finish _ report d
    | master => exact performed_finishMaster _ report d
  | change content =>
    rw [perform]
    rcases change_cases project content d with ⟨e, h⟩ | ⟨file, files, note, hf, hw, h⟩
    · rw [h]; exact .quiet (.refl d) rfl
    · rw [h]; exact .wrote (Or.inl hf) hw
  | create t content => exact .created rfl (create_run project t content d)
  | delete t => exact .deleted rfl (delete_run project t d)
  | assign assignments => exact performed_assign _ assignments d
  | updateReadme content => exact performed_writeDoc _ content d
  | delegate prompt =>
    rw [perform, run_bind, run_touch]
    exact performed_delegateToRoot _ prompt d
  | updateDocumentation content => exact performed_writeDoc _ content d
  | message question =>
    have hasked := unmoved_questioned d question
    rw [perform]
    rcases message_cases question d with ⟨e, h⟩ | ⟨note, h⟩
    · rw [h]; exact .quiet hasked rfl
    · rw [h]; exact .quiet (hasked.trans (unmoved_touched _)) rfl

end Arbor.Turn
