import Arbor.Proofs.Naming
import Arbor.Proofs.Turn.Books
import Arbor.Proofs.Turn.Refusal

/-! # What an agent remembers

An agent remembers files under the names by which they are shown. A name says which file it is, so
nothing that an agent reads takes the place of another file. Only reading adds to the memory, and only
the end of a task takes from it.

* `Faithful`: each entry of a memory is a file of the project under its own name.
* `Faithful.remember`: what stands in a memory after files were remembered.
* `perform_memory`: any verb but reading keeps the memory or clears it.
* `memory_faithful`: so memories are faithful at all times, and what reading makes of one. -/

namespace Arbor.Turn

open Directive Act

variable {project : Project} {memory : Table Path} {base p q : Path} {d d' : Desk} {k : Dialect}

/-! ### Remembering files -/

/-- **Each entry of the memory is a file of the project under its own name,** and no name has two
entries. -/
structure Faithful (project : Project) (memory : Table Path) : Prop where
  ordered : memory.Ordered
  normal : ∀ key p, (key, p) ∈ memory → p.normalize = p
  held : ∀ key p, (key, p) ∈ memory → project.holds p = true
  named : ∀ key p, (key, p) ∈ memory → project.displayName p = key

theorem faithful_nil (project : Project) : Faithful project [] :=
  ⟨Table.ordered_nil, by simp, by simp, by simp⟩

section

variable (rooted : project.root.isAbsolute = true)

include rooted

/-- A file that is remembered under its name takes the place of no other. -/
theorem Faithful.mem_put (h : Faithful project memory) (normal : p.normalize = p)
    (held : project.holds p = true) {key : String} :
    (key, q) ∈ memory.put (project.displayName p) p ↔
      (key, q) ∈ memory ∨ (q = p ∧ key = project.displayName q) := by
  constructor
  · intro hq
    rcases Table.mem_put hq with heq | hq
    · cases heq
      exact Or.inr ⟨rfl, rfl⟩
    · exact Or.inl hq
  · rintro (hq | ⟨rfl, rfl⟩)
    · by_cases hkey : key = project.displayName p
      · -- what stands there is the file itself
        have hname : project.displayName q = project.displayName p := (h.named key q hq).trans hkey
        obtain rfl : q = p := Project.displayName_injOn rooted (h.normal key q hq) normal
          (h.held key q hq) held hname
        rw [hkey]
        exact Table.mem_put_self memory _ q
      · exact Table.mem_put_of_mem hq hkey p
    · exact Table.mem_put_self memory _ q

theorem Faithful.put (h : Faithful project memory) (normal : p.normalize = p)
    (held : project.holds p = true) : Faithful project (memory.put (project.displayName p) p) := by
  have split : ∀ key q, (key, q) ∈ memory.put (project.displayName p) p →
      (key, q) ∈ memory ∨ (q = p ∧ key = project.displayName q) :=
    fun key q => (h.mem_put rooted normal held).mp
  refine ⟨h.ordered.put _ p, fun key q hq => ?_, fun key q hq => ?_, fun key q hq => ?_⟩
  all_goals rcases split key q hq with hmem | ⟨rfl, rfl⟩
  · exact h.normal key q hmem
  · exact normal
  · exact h.held key q hmem
  · exact held
  · exact h.named key q hmem
  · rfl

/-- **What stands in a memory after files were remembered:** what stood there, and the files. -/
theorem Faithful.remember (h : Faithful project memory) {paths : List Path}
    (normal : ∀ p ∈ paths, p.normalize = p) (held : ∀ p ∈ paths, project.holds p = true) :
    Faithful project (remember project paths memory) ∧
    ∀ key q, (key, q) ∈ Turn.remember project paths memory ↔
      (key, q) ∈ memory ∨ (q ∈ paths ∧ key = project.displayName q) := by
  induction paths generalizing memory with
  | nil => exact ⟨h, fun key q => by simp [Turn.remember]⟩
  | cons p rest ih =>
    have hp : p ∈ p :: rest := List.mem_cons_self
    have hput := h.put rooted (normal p hp) (held p hp)
    obtain ⟨hall, hmem⟩ := ih hput (fun r hr => normal r (List.mem_cons_of_mem p hr))
      (fun r hr => held r (List.mem_cons_of_mem p hr))
    refine ⟨hall, fun key q => ?_⟩
    have hfirst : (key, q) ∈ memory.put (project.displayName p) p ↔
        (key, q) ∈ memory ∨ (q = p ∧ key = project.displayName q) :=
      h.mem_put rooted (normal p hp) (held p hp)
    have hcons : Turn.remember project (p :: rest) memory =
        Turn.remember project rest (memory.put (project.displayName p) p) := rfl
    rw [hcons, hmem key q, hfirst, List.mem_cons, or_and_right, or_assoc]

end

/-! ### Reading -/

/-- The file that a target stands for as seen from a folder. -/
def fileOf (base : Path) (t : Target) : Path :=
  if t.isFolder then Project.docPath (Project.resolve base t.name) else Project.resolve base t.name

/-- A target that is found stands for its file, and its name leads into the project. -/
theorem locate_eq_ok {files : FileSystem} {t : Target} (h : locate project files base t = .ok p) :
    p = fileOf base t ∧ project.holds (Project.resolve base t.name) = true := by
  unfold locate at h
  unfold fileOf
  by_cases held : project.holds (Project.resolve base t.name) = true
  · refine ⟨?_, held⟩
    simp only [held, Bool.not_true, Bool.false_eq_true, if_false] at h
    split_ifs at h ⊢ <;> exact (Except.ok.inj h).symm
  · simp [held] at h

/-- The files of targets that are found, one for each. -/
theorem paths_eq_map {files : FileSystem} {targets : List Target} {paths : List Path}
    (h : targets.mapM (locate project files base) = .ok paths) :
    paths = targets.map (fileOf base) ∧
      ∀ t ∈ targets, project.holds (Project.resolve base t.name) = true := by
  induction targets generalizing paths with
  | nil =>
    cases h
    exact ⟨rfl, by simp⟩
  | cons t rest ih =>
    rw [List.mapM_cons] at h
    obtain ⟨p, hp, h⟩ := bind_eq_ok.mp h
    obtain ⟨more, hmore, h⟩ := bind_eq_ok.mp h
    cases h
    obtain ⟨rfl, held⟩ := locate_eq_ok hp
    obtain ⟨rfl, hrest⟩ := ih hmore
    exact ⟨rfl, fun t' ht' => (List.mem_cons.mp ht').elim (fun heq => heq ▸ held) (hrest t')⟩

/-- **What targets stand for** are files of the project, however the targets are spelled. -/
theorem fileOf_spec (rooted : project.root.isAbsolute = true) {t : Target}
    (held : project.holds (Project.resolve base t.name) = true) :
    (fileOf base t).normalize = fileOf base t ∧ project.holds (fileOf base t) = true := by
  have normal : (Project.resolve base t.name).IsNormal := Path.isNormal_normalize _
  unfold fileOf
  split_ifs
  · exact Project.docPath_of_holds rooted normal held
  · exact ⟨normal, held⟩

/-- A reading that is not refused remembers the files of all targets. -/
theorem read_run (targets : List Target) (d : Desk) :
    (∃ e, (read project targets).run d = (.error e, d)) ∨
    ∃ step, (∀ t ∈ targets, project.holds (Project.resolve (d.agent.baseDir project) t.name) = true) ∧
      (read project targets).run d = (.ok step, { d with agent := { d.agent with
        memory := remember project (targets.map (fileOf (d.agent.baseDir project)))
          d.agent.memory } }) := by
  simp only [read, run_bind, run_get, run_lift, run_modifyAgent]
  cases hpaths : targets.mapM (locate project d.world.site.files (d.agent.baseDir project)) with
  | error e => exact Or.inl ⟨e, rfl⟩
  | ok paths =>
    obtain ⟨rfl, held⟩ := paths_eq_map hpaths
    exact Or.inr ⟨_, held, rfl⟩

/-! ### Any directive -/

/-- The memory is kept, or nothing is left of it. -/
def KeptOrCleared (d : Desk) (out : Except AgentError Step × Desk) : Prop :=
  out.2.agent.memory = d.agent.memory ∨ out.2.agent.memory = []

theorem readied_memory (k : Dialect) (d : Desk) : (readied k d).agent.memory = d.agent.memory := by
  unfold readied touched
  split <;> rfl

theorem handedOut_memory (orders : List (AgentId × String)) (d : Desk) :
    (handedOut orders d).agent.memory = d.agent.memory := by
  obtain ⟨delegated, h⟩ := handedOut_delegated orders d
  rw [h]

theorem creation_memory {t : Target} {out : Except AgentError Step × Desk}
    (h : Creation project t d out) : out.2.agent.memory = d.agent.memory := by
  cases h <;> rfl

theorem deletion_memory {t : Target} {out : Except AgentError Step × Desk}
    (h : Deletion project t d out) : out.2.agent.memory = d.agent.memory := by
  cases h <;> rfl

theorem writeDoc_memory (content : String) (d : Desk) :
    KeptOrCleared d ((writeDoc project content).run d) := by
  rcases writeDoc_cases project content d with ⟨e, h⟩ | ⟨doc, files, note, -, -, h⟩
  all_goals
    rw [h]
    exact Or.inl rfl

theorem finish_memory (report : String) (d : Desk) :
    KeptOrCleared d ((finish project report).run d) := by
  rcases finish_cases project report d with ⟨e, -, h⟩ | ⟨payload, -, h⟩
  · rw [h]
    exact Or.inl rfl
  · rw [h]
    refine Or.inr ?_
    have hagent := (releaseScratch_cases d.agent.retire d.world.site).1
    exact congrArg Agent.memory hagent

theorem finishMaster_memory (report : String) (d : Desk) :
    KeptOrCleared d ((finishMaster report).run d) := by
  generalize hrun : ((finishMaster report).run d : Except AgentError Step × Desk) = out
  have h := hrun ▸ finishMaster_run report d
  cases h with
  | rootActive working => exact Or.inl rfl
  | helpersActive => exact Or.inl rfl
  | unheard text => exact Or.inl rfl
  | goesOn reply idle => exact Or.inl rfl
  | ended idle => exact Or.inr rfl

/-- **Any verb but reading** keeps the memory, or clears it where it ends the task. -/
theorem perform_memory (x : Directive k) (unread : ∀ targets, x ≠ .read targets) (d : Desk) :
    KeptOrCleared d ((perform project x).run d) := by
  cases x with
  | read targets => exact absurd rfl (unread targets)
  | run command =>
    rw [perform, run_bind, touchFirst_run]
    refine Or.inl (Eq.trans ?_ (readied_memory k d))
    rcases run_cases project command (readied k d) with ⟨e, h⟩ | ⟨r, h, -⟩
    all_goals
      simp only
      rw [h]
  | spawn orders =>
    rw [perform, run_bind, touchFirst_run]
    refine Or.inl (Eq.trans ?_ (readied_memory k d))
    rcases spawn_cases project orders (readied k d) with ⟨h, -⟩ | ⟨-, r, after, hs, h⟩
    · simp only
      rw [h]
    · obtain ⟨own, helpers, ha⟩ := hs.agent
      simp only at ha ⊢
      rw [h, ha]
  | wait =>
    rw [perform]
    rcases wait_cases d with ⟨-, h⟩ | ⟨-, h⟩
    all_goals
      rw [h]
      exact Or.inl rfl
  | finish report =>
    cases k with
    | coder => exact finish_memory report d
    | manager => exact finish_memory report d
    | master => exact finishMaster_memory report d
  | change content =>
    rw [perform]
    rcases change_cases project content d with ⟨e, h⟩ | ⟨file, files, note, -, -, h⟩
    all_goals
      rw [h]
      exact Or.inl rfl
  | create t content => exact Or.inl (creation_memory (create_run project t content d))
  | delete t => exact Or.inl (deletion_memory (delete_run project t d))
  | assign assignments =>
    rw [perform]
    rcases assign_cases assignments d with ⟨e, h⟩ | ⟨children, note, -, h⟩
    · rw [h]
      exact Or.inl rfl
    · rw [h]
      exact Or.inl (handedOut_memory _ d)
  | updateReadme content => exact writeDoc_memory content d
  | delegate prompt =>
    rw [perform, run_bind, run_touch]
    rcases delegateToRoot_cases prompt (touched d) with ⟨e, h⟩ | ⟨entry, root, rest, note, -, h⟩
    · exact Or.inl (congrArg (fun out => out.2.agent.memory) h)
    · exact Or.inl ((congrArg (fun out => out.2.agent.memory) h).trans (handedOut_memory _ _))
  | updateDocumentation content => exact writeDoc_memory content d
  | message question =>
    rw [perform]
    rcases message_cases question d with ⟨e, h⟩ | ⟨note, h⟩
    all_goals
      rw [h]
      exact Or.inl rfl

/-- The prompt that a directive leaves is not remembered. -/
theorem interpret_memory (x : Directive k) (d : Desk) :
    (interpret project x d).2.agent.memory = ((perform project x).run d).2.agent.memory := by
  obtain ⟨outcome, after, hrun⟩ :
      ∃ outcome after, (perform project x).run d = (outcome, after) := ⟨_, _, rfl⟩
  rw [interpret_of_run hrun, hrun]

theorem receive_memory (a : Agent) (e : Envelope) (now : Nat) :
    (a.receive e now).memory = a.memory := by
  obtain ⟨later, hnoted⟩ := a.noted_eq now
  unfold Agent.receive
  simp only [hnoted]
  cases e with
  | plain text => rfl
  | task sender task =>
    simp only [Agent.takeTask]
    split_ifs <;> rfl
  | report r =>
    simp only [Agent.takeReport, Agent.dismiss]
    split_ifs <;> rfl

/-- **What reading leaves in a memory:** what stood there, and the files of all targets. -/
theorem interpret_read_memory (rooted : project.root.isAbsolute = true) (targets : List Target)
    (h : Faithful project d.agent.memory) :
    Faithful project (interpret project (.read targets : Directive k) d).2.agent.memory ∧
    (¬ Refused project (.read targets : Directive k) d → ∀ key p,
      (key, p) ∈ (interpret project (.read targets : Directive k) d).2.agent.memory ↔
        (key, p) ∈ d.agent.memory ∨
        ∃ t ∈ targets, p = fileOf (d.agent.baseDir project) t ∧ key = project.displayName p) := by
  have hbase : (readied k d).agent.baseDir project = d.agent.baseDir project := by
    unfold readied
    split_ifs <;> rfl
  have hmemory := readied_memory k d
  rw [interpret_memory, perform, run_bind, touchFirst_run]
  simp only
  rcases read_run targets (readied k d) with ⟨e, hrun⟩ | ⟨step, held, hrun⟩
  · rw [hrun]
    simp only [hmemory]
    refine ⟨h, fun unrefused => absurd ⟨e, ?_⟩ unrefused⟩
    rw [perform, run_bind, touchFirst_run]
    exact congrArg Prod.fst hrun
  · rw [hrun]
    simp only [hmemory, hbase] at held ⊢
    have spec : ∀ p ∈ targets.map (fileOf (d.agent.baseDir project)),
        p.normalize = p ∧ project.holds p = true := by
      intro p hp
      obtain ⟨t, ht, rfl⟩ := List.mem_map.mp hp
      exact fileOf_spec rooted (held t ht)
    obtain ⟨faithful, mem⟩ := h.remember rooted (fun p hp => (spec p hp).1) fun p hp => (spec p hp).2
    refine ⟨faithful, fun _ key p => ?_⟩
    rw [mem key p, List.mem_map]
    constructor
    · rintro (hold | ⟨⟨t, ht, rfl⟩, hkey⟩)
      · exact Or.inl hold
      · exact Or.inr ⟨t, ht, rfl, hkey⟩
    · rintro (hold | ⟨t, ht, rfl, hkey⟩)
      · exact Or.inl hold
      · exact Or.inr ⟨⟨t, ht, rfl⟩, hkey⟩

/-! ### Any run -/

/-- What happens to an agent, one thing after the other. -/
inductive Lives (project : Project) : Desk → Desk → Prop where
  | directive {k : Dialect} (x : Directive k) (d : Desk) : Lives project d (interpret project x d).2
  /-- Its task ends. -/
  | deactivation {d : Desk} {task : Option Task} {a : Agent}
      (ends : d.agent.deactivate = .ok (task, a)) : Lives project d { d with agent := a }
  | envelope (e : Envelope) (now : Nat) (d : Desk) :
      Lives project d { d with agent := d.agent.receive e now }
  /-- Others change the world. -/
  | elsewhere (w : World) (d : Desk) : Lives project d { d with world := w }

theorem Faithful.step (rooted : project.root.isAbsolute = true) (h : Faithful project d.agent.memory)
    (lives : Lives project d d') : Faithful project d'.agent.memory := by
  cases lives with
  | directive x =>
    by_cases reads : ∃ targets, x = .read targets
    · obtain ⟨targets, rfl⟩ := reads
      exact (interpret_read_memory rooted targets h).1
    · rw [interpret_memory]
      have unread : ∀ targets, x ≠ .read targets := fun targets hx => reads ⟨targets, hx⟩
      have kept : KeptOrCleared d ((perform project x).run d) := perform_memory x unread d
      rcases kept with keeps | clears
      · rw [keeps]
        exact h
      · rw [clears]
        exact faithful_nil project
  | deactivation ends =>
    unfold Agent.deactivate at ends
    split at ends
    · cases ends
    · cases ends
      exact faithful_nil project
  | envelope e now =>
    simp only [receive_memory]
    exact h
  | elsewhere w => exact h

theorem Faithful.run (rooted : project.root.isAbsolute = true) (h : Faithful project d.agent.memory)
    (lives : Relation.ReflTransGen (Lives project) d d') : Faithful project d'.agent.memory := by
  induction lives with
  | refl => exact h
  | tail _ step ih => exact ih.step rooted step

/-- **Memories are faithful at all times:** whatever happens to an agent that starts with no memory or
a faithful one, each entry is a file of the project under its own name, and no two files share one. So
a reading that is not refused adds the files of its targets, however these are spelled, and takes the
place of nothing. -/
theorem memory_faithful (rooted : project.root.isAbsolute = true) :
    Faithful project [] ∧
    (∀ d d' : Desk, Faithful project d.agent.memory → Relation.ReflTransGen (Lives project) d d' →
      Faithful project d'.agent.memory) ∧
    (∀ p q : Path, p.normalize = p → q.normalize = q → project.holds p = true →
      project.holds q = true → project.displayName p = project.displayName q → p = q) ∧
    ∀ (k : Dialect) (targets : List Target) (d : Desk), Faithful project d.agent.memory →
      ¬ Refused project (.read targets : Directive k) d → ∀ key p,
      (key, p) ∈ (interpret project (.read targets : Directive k) d).2.agent.memory ↔
        (key, p) ∈ d.agent.memory ∨
        ∃ t ∈ targets, p = fileOf (d.agent.baseDir project) t ∧ key = project.displayName p :=
  ⟨faithful_nil project, fun _ _ h lives => h.run rooted lives,
    fun _ _ hp hq pheld qheld => Project.displayName_injOn rooted hp hq pheld qheld,
    fun _ targets _ h => (interpret_read_memory rooted targets h).2⟩

/-- One file, spelled in three ways. -/
def cellarSpellings : Directive .manager :=
  .read [⟨"a.py", false⟩, ⟨" ../sub/.//a.py ", false⟩, ⟨"/p/../p/sub/a.py", false⟩]

/-- The file is remembered once, under its own name. -/
theorem memory_faithful_cellar :
    cellarProject.root.isAbsolute = true ∧ ¬ Refused cellarProject cellarSpellings cellarDesk ∧
    Faithful cellarProject (interpret cellarProject cellarSpellings cellarDesk).2.agent.memory ∧
    ∀ key p, (key, p) ∈ (interpret cellarProject cellarSpellings cellarDesk).2.agent.memory ↔
      key = "sub/a.py" ∧ p = ⟨"/p/sub/a.py"⟩ := by
  have rooted : cellarProject.root.isAbsolute = true := by decide +kernel
  obtain ⟨nothing, run, -, reading⟩ := memory_faithful rooted
  have unrefused : ¬ Refused cellarProject cellarSpellings cellarDesk :=
    not_refused_of_isOk (by decide +kernel)
  have faithful := run cellarDesk _ nothing (.single (.directive cellarSpellings cellarDesk))
  refine ⟨rooted, unrefused, faithful, fun key p => (reading .manager _ cellarDesk nothing
    unrefused key p).trans ?_⟩
  have files : ∀ t ∈ [⟨"a.py", false⟩, ⟨" ../sub/.//a.py ", false⟩, ⟨"/p/../p/sub/a.py", false⟩],
      fileOf (cellarDesk.agent.baseDir cellarProject) t = ⟨"/p/sub/a.py"⟩ := by decide +kernel
  have name : cellarProject.displayName ⟨"/p/sub/a.py"⟩ = "sub/a.py" := by decide +kernel
  constructor
  · rintro (hmem | ⟨t, ht, rfl, rfl⟩)
    · cases hmem
    · rw [files t ht]
      exact ⟨name, rfl⟩
  · rintro ⟨rfl, rfl⟩
    exact Or.inr ⟨⟨"a.py", false⟩, by simp, (files _ (by simp)).symm, name.symm⟩

end Arbor.Turn
