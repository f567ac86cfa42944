import Arbor.Proofs.PathEnds
import Arbor.Proofs.Turn.Refusal

/-! # Files that are made anew

Whoever makes a file asks first whether something stands at its path. The question is answered for
where the path leads; a link that leads nowhere is not noticed, and the file is written where it
points to.

* `added_madeAnew`: what holds of one new file after the other holds of all of them.
* `spawning_added`: the scratch files of helpers, one after the other.
* `madeAnew_iff`: exactly when the files of a directive are made anew. -/

namespace Arbor.Turn

open FileSystem Directive Act

variable {project : Project} {d d' : Desk} {k : Dialect} {fs fs' : FileSystem} {p : Path}
  {paths : List Path} {r : Location}

/-- The new file that an effect tells of. -/
def Effect.file? : Effect → Option Path
  | .adopt _ _ path => some path
  | .spawn _ _ _ scratch => some scratch.path
  | _ => none

/-- The new files that a directive tells of. -/
def newFiles (project : Project) (x : Directive k) (d : Desk) : List Path :=
  (interpret project x d).1.filterMap Effect.file?

/-- The directive makes files for new agents: a file of a folder, or scratch files of their own for
the helpers of an agent that is no coder. -/
def MakesFiles (d : Desk) : Directive k → Prop
  | .create t _ => t.isFolder = false
  | .spawn _ => d.agent.kind ≠ .coder
  | _ => False

/-- **Files are made anew at the paths:** nothing stood there, not even a link; afterwards regular
files do; and no other place has changed. -/
structure MadeAnew (fs fs' : FileSystem) (paths : List Path) : Prop where
  absent : ∀ p ∈ paths, fs.entryAt? p = none
  present : ∀ p ∈ paths, ∃ content, fs'.entryAt? p = some (.file content)
  others : ∀ loc, fs'.find? loc ≠ fs.find? loc → ∃ p ∈ paths, fs.walk .entered p = .ok loc

/-! ### One file after the other -/

/-- New files are put where nothing stands, one after the other. -/
inductive Added : FileSystem → List Path → FileSystem → Prop where
  | done (fs : FileSystem) : Added fs [] fs
  | next {fs fs' : FileSystem} {p : Path} {paths : List Path} {r : Location} (content : ByteArray)
      (walk : fs.walk .entered p = .ok r) (absent : fs.find? r = none)
      (more : Added (fs.insert r (.file content)) paths fs') : Added fs (p :: paths) fs'

theorem find?_insert_new (content : ByteArray) (absent : fs.find? r = none) :
    (fs.insert r (.file content)).find? r = some (.file content) :=
  find?_insert_self fs _ fun h => by rw [h, find?_nil] at absent; cases absent

theorem added_sameWays (h : Added fs paths fs') : SameWays fs fs' := by
  induction h with
  | done fs => exact .refl fs
  | next content walk absent more ih => exact (sameWays_insert absent content).trans ih

/-- **What is put where nothing stands, one after the other,** is made anew altogether. -/
theorem added_madeAnew (h : Added fs paths fs') : MadeAnew fs fs' paths := by
  induction h with
  | done fs => exact ⟨by simp, by simp, fun loc h => absurd rfl h⟩
  | @next fs fs' p paths r content walk absent more ih =>
    have same := sameWays_insert absent content
    have hwalk := same.walk_iff.mp walk
    have hnew := find?_insert_new content absent
    refine ⟨?_, ?_, ?_⟩
    · intro q hq
      rcases List.mem_cons.mp hq with rfl | hq
      · rw [entryAt?_of_walk walk, absent]
      by_contra hsome
      obtain ⟨entry, hentry⟩ := Option.ne_none_iff_exists'.mp hsome
      obtain ⟨loc, hloc, hfind⟩ := entryAt?_eq_some.mp hentry
      have hne : loc ≠ r := by
        rintro rfl
        rw [absent] at hfind
        cases hfind
      have hstill : (fs.insert r (.file content)).entryAt? q = some entry := by
        rw [entryAt?_of_walk (same.walk_iff.mp hloc), find?_insert_of_ne fs _ hne, hfind]
      rw [ih.absent q hq] at hstill
      cases hstill
    · intro q hq
      rcases List.mem_cons.mp hq with rfl | hq
      · refine ⟨content, ?_⟩
        rw [entryAt?_of_walk ((added_sameWays more).walk_iff.mp hwalk), ← hnew]
        -- the later files leave this one alone
        by_contra hchanged
        obtain ⟨q', hq', hloc⟩ := ih.others r hchanged
        have habsent := ih.absent q' hq'
        rw [entryAt?_of_walk hloc, hnew] at habsent
        cases habsent
      · exact ih.present q hq
    · intro loc hchanged
      by_cases hloc : loc = r
      · exact ⟨p, List.mem_cons_self, hloc ▸ walk⟩
      · rw [← find?_insert_of_ne fs (.file content) hloc] at hchanged
        obtain ⟨q, hq, hq'⟩ := ih.others loc hchanged
        exact ⟨q, List.mem_cons_of_mem p hq, same.walk_iff.mpr hq'⟩

/-! ### Scratch files and entries -/

/-- No link stands at any of the paths. -/
def Linkless (fs : FileSystem) (paths : List Path) : Prop :=
  ∀ p ∈ paths, ∀ target, fs.entryAt? p ≠ some (.link target)

/-- New files make no links. -/
theorem Linkless.of_sameWays (h : Linkless fs paths) (same : SameWays fs fs') : Linkless fs' paths := by
  intro p hp target hlink
  obtain ⟨loc, hloc, hfind⟩ := entryAt?_eq_some.mp hlink
  refine h p hp target ?_
  rw [entryAt?_of_walk (same.walk_iff.mpr hloc)]
  exact same.back loc _ rfl hfind

/-- The scratch file of one helper is put where nothing stands, unless a link does. -/
theorem scratchTaken_new {scratch : Scratch} (h : ScratchTaken project d scratch d')
    (notCoder : d.agent.kind ≠ .coder)
    (solid : ∀ target, d.world.site.files.entryAt? scratch.path ≠ some (.link target)) :
    ∃ r content, d.world.site.files.walk .entered scratch.path = .ok r ∧
      d.world.site.files.find? r = none ∧
      (hire d').world.site.files = d.world.site.files.insert r (.file content) ∧
      (hire d').agent.kind ≠ .coder := by
  cases h with
  | shared isCoder shares write => exact absurd isCoder notCoder
  | @numbered files _ write =>
    have absent := Project.exists?_nextScratch project d.world.site (d.agent.baseDir project)
    dsimp only at solid ⊢
    generalize project.nextScratch d.world.site (d.agent.baseDir project) = path at *
    obtain ⟨r, hwalk, hnone, rfl⟩ := writeText_new write absent solid
    exact ⟨r, _, hwalk, hnone, files_claim _ _, notCoder⟩

/-- **The scratch files of helpers are put one after the other** where nothing stands, unless a link
does. -/
theorem spawning_added {orders : List HelperOrder} {out : Except AgentError (List Effect) × Desk}
    (h : Spawning project orders d out) (notCoder : d.agent.kind ≠ .coder) {effects : List Effect}
    (started : out.1 = .ok effects)
    (linkless : Linkless d.world.site.files (effects.filterMap Effect.file?)) :
    Added d.world.site.files (effects.filterMap Effect.file?) out.2.world.site.files := by
  induction h generalizing effects with
  | done d =>
    cases started
    exact .done _
  | refused order rest d e => cases started
  | @next order rest d d' after scratch r taken more ih =>
    obtain ⟨later, rfl, rfl⟩ := map_eq_ok.mp started
    have hpaths : (Effect.spawn ⟨d'.world.nextNumber⟩ order.kind order.prompt scratch ::
        later).filterMap Effect.file? = scratch.path :: later.filterMap Effect.file? := rfl
    rw [hpaths] at linkless ⊢
    obtain ⟨loc, content, hwalk, habsent, hfiles, hkind⟩ := scratchTaken_new taken notCoder
      (linkless _ List.mem_cons_self)
    have hlater := ih hkind rfl
    rw [hfiles] at hlater
    have hlinkless : Linkless d.world.site.files (later.filterMap Effect.file?) := fun q hq =>
      linkless q (List.mem_cons_of_mem _ hq)
    exact .next content hwalk habsent (hlater (hlinkless.of_sameWays (sameWays_insert habsent content)))

theorem creation_added {t : Target} {step : Step} (h : Creation project t d (.ok step, d'))
    (isFile : t.isFolder = false)
    (linkless : Linkless d.world.site.files (step.effects.filterMap Effect.file?)) :
    Added d.world.site.files (step.effects.filterMap Effect.file?) d'.world.site.files := by
  cases h with
  | @made entry path files note own absent free entryMade =>
    cases entryMade with
    | folder isFolder make notes =>
      rw [isFile] at isFolder
      cases isFolder
    | file _ write =>
      obtain ⟨loc, hwalk, habsent, rfl⟩ := writeText_new write absent
        (linkless path List.mem_cons_self)
      exact .next _ hwalk habsent (.done _)

/-! ### Any directive that makes files -/

/-- **The files of a directive are made anew** exactly if none of their paths was that of a link. -/
theorem madeAnew_iff {x : Directive k} (makes : MakesFiles d x) (succeeds : ¬ Refused project x d) :
    MadeAnew d.world.site.files (interpret project x d).2.world.site.files (newFiles project x d) ↔
      Linkless d.world.site.files (newFiles project x d) := by
  refine ⟨fun made p hp target hlink => ?_, fun linkless => added_madeAnew ?_⟩
  · rw [made.absent p hp] at hlink
    cases hlink
  obtain ⟨step, after, hrun⟩ := run_of_not_refused succeeds
  unfold newFiles at linkless ⊢
  rw [interpret_of_run hrun] at linkless ⊢
  change Linkless d.world.site.files (step.effects.filterMap Effect.file?) at linkless
  change Added d.world.site.files (step.effects.filterMap Effect.file?) after.world.site.files
  cases x with
  | create t content =>
    have hcreation := create_run project t content d
    rw [show (create project t content).run d = (.ok step, after) from hrun] at hcreation
    exact creation_added hcreation makes linkless
  | spawn orders =>
    rw [perform, run_bind, touchFirst_run] at hrun
    simp only at hrun
    have still := unmoved_readied k d
    have hkind : (readied k d).agent.kind ≠ .coder := by
      obtain ⟨memory, now, agent⟩ := still.agent
      rw [agent]
      exact makes
    rcases spawn_cases project orders (readied k d) with ⟨h, -⟩ | ⟨-, outcome, after', spawning, h⟩
    · cases h.symm.trans hrun
    · rw [h] at hrun
      cases outcome with
      | error e => cases hrun
      | ok effects =>
        cases hrun
        have hadded := spawning_added spawning hkind rfl
        rw [still.site] at hadded
        exact hadded linkless
  | _ => exact makes.elim

/-- A new file beside the one that is there. -/
def cellarCreation : Directive .manager := .create ⟨"b.py", false⟩ (some "x = 1")

/-- Nothing stood at its path, a file does afterwards, and nothing else has changed. -/
theorem madeAnew_cellar :
    MakesFiles cellarDesk cellarCreation ∧ ¬ Refused cellarProject cellarCreation cellarDesk ∧
    newFiles cellarProject cellarCreation cellarDesk = [⟨"/p/sub/b.py"⟩] ∧
    MadeAnew cellarDesk.world.site.files
      (interpret cellarProject cellarCreation cellarDesk).2.world.site.files
      (newFiles cellarProject cellarCreation cellarDesk) := by
  have succeeds : ¬ Refused cellarProject cellarCreation cellarDesk := not_refused_of_isOk (by decide +kernel)
  have hpaths : newFiles cellarProject cellarCreation cellarDesk = [⟨"/p/sub/b.py"⟩] := by
    decide +kernel
  have makes : MakesFiles cellarDesk cellarCreation := rfl
  refine ⟨makes, succeeds, hpaths, (madeAnew_iff makes succeeds).mpr fun p hp target hlink => ?_⟩
  rw [hpaths, List.mem_singleton] at hp
  have hnone : (cellarDesk.world.site.files.entryAt? ⟨"/p/sub/b.py"⟩).isNone = true := by
    decide +kernel
  rw [← hp, hlink] at hnone
  cases hnone

/-! ### A link that leads nowhere -/

/-- A folder in which a name is that of a link to a file outside, which is absent. -/
def gate : FileSystem := ⟨[(["p"], .folder), (["p", "a.py"], .link "../outside.py")]⟩

/-- The manager of that folder. -/
def gateDesk : Desk where
  agent := .fresh ⟨1⟩ .manager "." (.folder (pathOf ["p"])) none 0
  world := .start gate [] [] 2

/-- A file of that name is made. -/
def gateCreation : Directive .manager := .create ⟨"a.py", false⟩ (some "x = 1")

/-- **The file is written outside the project:** the link counts as nothing, and is followed. -/
theorem gate_written_through :
    MakesFiles gateDesk gateCreation ∧ ¬ Refused cellarProject gateCreation gateDesk ∧
    newFiles cellarProject gateCreation gateDesk = [⟨"/p/a.py"⟩] ∧
    (gate.entryAt? ⟨"/p/a.py"⟩).isSome = true ∧
    (gate.find? ["outside.py"]).isNone = true ∧
    ((interpret cellarProject gateCreation gateDesk).2.world.site.files.find?
      ["outside.py"]).isSome = true ∧
    ¬ MadeAnew gateDesk.world.site.files
      (interpret cellarProject gateCreation gateDesk).2.world.site.files
      (newFiles cellarProject gateCreation gateDesk) := by
  have succeeds : ¬ Refused cellarProject gateCreation gateDesk := not_refused_of_isOk (by decide +kernel)
  have hpaths : newFiles cellarProject gateCreation gateDesk = [⟨"/p/a.py"⟩] := by decide +kernel
  have hlink : (gate.entryAt? ⟨"/p/a.py"⟩).isSome = true := by decide +kernel
  refine ⟨rfl, succeeds, hpaths, hlink, by decide +kernel, by decide +kernel, fun made => ?_⟩
  have hnone := made.absent ⟨"/p/a.py"⟩ (by rw [hpaths]; exact List.mem_cons_self)
  change gate.entryAt? ⟨"/p/a.py"⟩ = none at hnone
  rw [hnone] at hlink
  cases hlink

end Arbor.Turn
