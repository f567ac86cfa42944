import Arbor.Proofs.Turn.Station
import Arbor.Roster

/-! # Agents stay in their scope

Whatever a directive says, carrying it out changes the file system only within the reach of the
station that its agent holds.

* `perform_stays`: carrying out a directive edits places in reach only and leaves the agent at its
  station.
* `interpret_confined`: the same for the whole of a turn, with what it means for the project: nothing
  outside its root changes, and what the engine keeps can be neither made nor removed.
* `newcomers_held`: the agents that a directive asks for hold stations in the project as well. -/

namespace Arbor.Turn

open FileSystem Directive Act

variable {project : Project} {files : FileSystem} {home own dir : Location} {st : Station}
  {d d' d'' : Desk}

/-! ### Staying at a station -/

/-- **The agent stays within its reach:** the files differ there only, and it keeps its station. -/
structure Stays (project : Project) (home own : Location) (whole : Bool) (st : Station)
    (d d' : Desk) : Prop where
  edit : Edit (st.Reach project home own whole) d.world.site.files d'.world.site.files
  held : st.Held project home d'.agent

variable {whole : Bool}

theorem Stays.trans (h : Stays project home own whole st d d')
    (h' : Stays project home own whole st d' d'') : Stays project home own whole st d d'' :=
  ⟨h.edit.trans h'.edit, h'.held⟩

/-- Where neither the files nor the station of the agent change. -/
theorem stays_still (hh : st.Held project home d.agent)
    (hf : d'.world.site.files = d.world.site.files) (hk : d'.agent.kind = d.agent.kind)
    (hs : d'.agent.scope = d.agent.scope) (hx : d'.agent.scratch = d.agent.scratch) :
    Stays project home own whole st d d' :=
  ⟨hf ▸ Edit.refl _ _, hh.congr hk hs hx⟩

/-- Where one place in reach is written. -/
theorem stays_write {loc : Location} {text : String} {files : FileSystem}
    (hg : project.Grounded d.world.site.files home) (hh : st.Held project home d.agent)
    (hloc : loc.Named) (hin : home <+: loc)
    (hw : d.world.site.files.writeText (pathOf loc) text = .ok files)
    (hr : st.Reach project home own whole loc) :
    Stays project home own whole st d { d with world := d.world.withFiles files } :=
  ⟨(edit_writeText hloc (hg.clear_inside hin) hw).mono fun _ he => he ▸ hr, hh⟩

theorem edit_ensureDoc {fs fs' : FileSystem} (hdir : dir.Named)
    (hc : fs.Clear (dir ++ [Project.docName dir])) (h : Project.ensureDoc fs (pathOf dir) = .ok fs') :
    Edit (· = dir ++ [Project.docName dir]) fs fs' := by
  unfold Project.ensureDoc at h
  split at h
  · cases h
    exact Edit.refl _ _
  · rw [Project.docPath_pathOf hdir] at h
    exact edit_writeText (hdir.concat (Project.isName_docName hdir)) hc h

/-- An entry that is made changes its own place, as a folder also what is below. -/
theorem edit_entryMade {t : Target} {loc : Location} {fs fs' : FileSystem}
    (hg : project.Grounded fs home) (hloc : loc.Named) (hin : home <+: loc)
    (h : EntryMade fs t (pathOf loc) fs') :
    Edit (fun l => l = loc ∨ (t.isFolder = true ∧ loc <+: l)) fs fs' := by
  have hclear := hg.clear_inside hin
  cases h with
  | @folder made files hf hm hn =>
    have hmade := edit_makeFolder hloc hclear hm
    have hdoc := edit_ensureDoc hloc
      ((hg.edit hmade).clear_inside (hin.trans (List.prefix_append loc _))) hn
    refine (hmade.mono fun l hl => Or.inl hl).trans (hdoc.mono fun l hl => Or.inr ⟨hf, ?_⟩)
    rw [hl]
    exact List.prefix_append loc _
  | file hf hw => exact (edit_writeText hloc hclear hw).mono fun l hl => Or.inl hl

/-- An entry that is removed changes its own place, as a folder also what is below. -/
theorem edit_entryRemoved {t : Target} {loc : Location} {fs fs' : FileSystem}
    (hg : project.Grounded fs home) (hloc : loc.Named) (hin : home <+: loc)
    (h : EntryRemoved fs t (pathOf loc) fs') :
    Edit (fun l => l = loc ∨ (t.isFolder = true ∧ loc <+: l)) fs fs' := by
  have hclear := hg.clear_inside hin
  unfold EntryRemoved at h
  split at h
  · next hf => exact (edit_removeFolder hloc hclear h).mono fun l hl => Or.inr ⟨hf, hl⟩
  · exact (edit_removeFile hg.tree hloc hclear h).mono fun l hl => Or.inl hl

/-- Some place is the agent's own. -/
theorem exists_owns (project : Project) (hh : st.Held project home d.agent)
    (he : '/' ∉ project.config.scratchExtension.toList) : ∃ own, st.Owns project d own := by
  cases st with
  | master => exact ⟨[], trivial⟩
  | manager dir => exact ⟨dir ++ ["a"], Or.inl ⟨"a", by decide, rfl⟩⟩
  | helper dir file => exact ⟨[], trivial⟩
  | coder dir file =>
    obtain ⟨hn, -, -, hs, hx⟩ := hh
    cases hscratch : d.agent.scratch with
    | some s =>
      obtain ⟨name, hname, hp⟩ := hx s hscratch
      exact ⟨dir ++ [name], ⟨name, hname, rfl⟩, by simp only [sharedPath?, hscratch, hp]⟩
    | none =>
      obtain ⟨name, hname, hp⟩ := Project.coderScratch_pathOf d.world.site hn he
      exact ⟨dir ++ [name], ⟨name, hname, rfl⟩,
        by simp only [sharedPath?, hscratch, hs, Scope.file?, hp]⟩

/-- Only a manager has a folder. -/
theorem folder_of_ownEntry {t : Target} {named : String × Path} (hh : st.Held project home d.agent)
    (h : ownEntry project d.world.site d.agent t = .ok named) : ∃ dir, st = .manager dir := by
  have hnone : d.agent.scope.folder? = none → ∃ dir, st = .manager dir := by
    intro hs
    simp only [ownEntry, hs] at h
    cases h
  cases st with
  | manager dir => exact ⟨dir, rfl⟩
  | master => exact hnone (by rw [hh.2.1]; rfl)
  | coder dir file => exact hnone (by rw [hh.2.2.2.1]; rfl)
  | helper dir file => exact hnone (by rw [hh.2.2.2.1]; rfl)

theorem files_claim (site : Site) (p : Path) : (site.claim p).files = site.files := by
  unfold Site.claim
  split <;> rfl

/-- The path is that of an entry of a folder in the project. -/
def InProject (home : Location) (path : Path) : Prop :=
  ∃ dir name, Location.Named (dir ++ [name]) ∧ home <+: dir ∧ path = pathOf (dir ++ [name])

/-- A helper's scratch file is within the reach of the agent that starts it. -/
theorem scratchTaken_stays {scratch : Scratch} (whole : Bool)
    (hg : project.Grounded d.world.site.files home)
    (hh : st.Held project home d.agent) (ho : st.Owns project d own)
    (hhelper : d.agent.kind.isHelper = false)
    (he : '/' ∉ project.config.scratchExtension.toList)
    (h : ScratchTaken project d scratch d') :
    Stays project home own whole st d d' ∧ st.Owns project (hire d') own ∧
      InProject home scratch.path := by
  cases h with
  | @shared path files hk hp hw =>
    cases st with
    | coder dir file =>
      obtain ⟨⟨name, hname, rfl⟩, hown⟩ := ho
      obtain rfl : pathOf (dir ++ [name]) = path := Option.some.inj (hown.symm.trans hp)
      have hnamed : Location.Named (dir ++ [name]) :=
        hh.1.left.concat (hname.isName hh.1.last.1 he)
      have hin := hh.2.1.trans (List.prefix_append dir [name])
      refine ⟨⟨?_, hh.1, hh.2.1, hh.2.2.1, hh.2.2.2.1, ?_⟩, ⟨⟨name, hname, rfl⟩, rfl⟩,
        dir, name, hnamed, hh.2.1, rfl⟩
      · simp only [claimed, files_claim]
        rcases hw with ⟨-, rfl⟩ | ⟨-, hw⟩
        · exact Edit.refl _ _
        · exact (edit_writeText hnamed (hg.clear_inside hin) hw).mono fun _ hl => Or.inr hl
      · rintro s ⟨⟩
        exact ⟨name, hname, rfl⟩
    | master => rw [hh.1] at hk; cases hk
    | manager dir => rw [hh.2.2.1] at hk; cases hk
    | helper dir file =>
      rw [hh.2.2.1] at hhelper
      cases hhelper
  | @numbered files hk hw =>
    -- The agent's folder is the root for the master and its own for a manager.
    have hnumbered : ∀ dir : Location, dir.Named → home <+: dir → d.agent.baseDir project = pathOf dir →
        (∀ n, st.Reach project home own whole
          (dir ++ [Project.scratchName (Project.stemOf dir) n project.config.scratchExtension])) →
        Stays project home own whole st d
          { d with world :=
            claimed d.world files (project.nextScratch d.world.site (d.agent.baseDir project)) } ∧
        InProject home (project.nextScratch d.world.site (d.agent.baseDir project)) := by
      intro dir hdir hin hbase hr
      obtain ⟨n, -, hn⟩ := Project.nextScratch_pathOf d.world.site hdir he
      have hnamed := hdir.concat (Project.isName_scratchName n (Project.stemOf_slashless hdir) he)
      rw [hbase, hn] at hw
      have hs := stays_write hg hh hnamed (hin.trans (List.prefix_append dir _)) hw (hr n)
      refine ⟨⟨?_, hh⟩, dir, _, hnamed, hin, by rw [hbase, hn]⟩
      simp only [claimed, files_claim]
      exact hs.edit
    cases st with
    | master =>
      have hbase : d.agent.baseDir project = pathOf home := by
        rw [Agent.baseDir, hh.2.1, hg.root_eq]
      obtain ⟨hs, hin⟩ := hnumbered home hg.named (List.prefix_refl home) hbase
        fun n => Or.inr ⟨n, rfl⟩
      refine ⟨hs, trivial, ?_⟩
      dsimp only
      exact hin
    | manager dir =>
      have hbase : d.agent.baseDir project = pathOf dir := by rw [Agent.baseDir, hh.2.2.2.1]
      obtain ⟨hs, hin⟩ := hnumbered dir hh.1 hh.2.1 hbase
        fun n => Or.inr (Or.inr (Or.inr ⟨n, rfl⟩))
      refine ⟨hs, ho, ?_⟩
      dsimp only
      exact hin
    | coder dir file => exact absurd hh.2.2.1 hk
    | helper dir file =>
      rw [hh.2.2.1] at hhelper
      cases hhelper

theorem scratchTaken_kind {scratch : Scratch} (h : ScratchTaken project d scratch d') :
    d'.agent.kind = d.agent.kind := by
  cases h <;> rfl

theorem hire_stays (own : Location) (whole : Bool) (hh : st.Held project home d.agent) :
    Stays project home own whole st d (hire d) := stays_still hh rfl rfl rfl rfl

theorem handedOut_still (orders : List (AgentId × String)) (d : Desk) :
    (handedOut orders d).world.site = d.world.site ∧
      (handedOut orders d).agent.kind = d.agent.kind ∧
      (handedOut orders d).agent.scope = d.agent.scope ∧
      (handedOut orders d).agent.scratch = d.agent.scratch := by
  induction orders generalizing d with
  | nil => exact ⟨rfl, rfl, rfl, rfl⟩
  | cons order rest ih => exact ih _

theorem unmoved_stays (hh : st.Held project home d.agent) (h : Unmoved d d') :
    Stays project home own whole st d d' := by
  obtain ⟨memory, now, ha⟩ := h.agent
  exact stays_still hh (by rw [h.site]) (by rw [ha]) (by rw [ha]) (by rw [ha])

theorem unmoved_owns (ho : st.Owns project d own) (h : Unmoved d d') : st.Owns project d' own := by
  obtain ⟨memory, now, ha⟩ := h.agent
  have hshared : sharedPath? project d' = sharedPath? project d := by
    simp only [sharedPath?, ha, h.site]
  cases st with
  | coder dir file => exact ⟨ho.1, hshared.trans ho.2⟩
  | _ => exact ho

/-- A project with a folder and a file in it, and a folder beside it. -/
def cellar : FileSystem :=
  ⟨[(["p"], .folder), (["p", "sub"], .folder), (["p", "sub", "a.py"], .file "pass".toUTF8),
    (["etc"], .folder)]⟩

/-- The project in the folder `/p`. -/
def cellarProject : Project := { root := pathOf ["p"], config := .standard "key" "model" }

/-- The manager of the folder `/p/sub` at work. -/
def cellarDesk : Desk where
  agent := .fresh ⟨1⟩ .manager "sub" (.folder (pathOf ["p", "sub"])) none 0
  world := .start cellar [] [] 2

/-- A station is held by whatever agent is made for an effect. -/
def Newcomer (project : Project) (home : Location) : Effect → Prop
  | .adopt id kind path => ∃ st : Station, ∀ name parent now,
      st.Held project home (.fresh id kind name (Roster.scopeOf kind path) parent now)
  | .spawn id kind _ scratch => ∃ st : Station, ∀ name parent now, st.Held project home
      { Agent.fresh id (.helper kind) name (.file scratch.path) parent now with
        scratch := some scratch }
  | _ => True

theorem newcomer_adopt {t : Target} {id : AgentId} {name : String}
    (hnamed : Location.Named (dir ++ [name])) (hin : home <+: dir) :
    Newcomer project home (.adopt id (targetKind t) (pathOf (dir ++ [name]))) := by
  unfold targetKind
  split
  · exact ⟨.manager (dir ++ [name]), fun _ _ _ =>
      ⟨hnamed, hin.trans (List.prefix_append dir [name]), rfl, rfl, rfl⟩⟩
  · exact ⟨.coder dir name, fun _ _ _ => ⟨hnamed, hin, rfl, rfl, fun _ h => by cases h⟩⟩

theorem newcomer_spawn {id : AgentId} {kind : HelperKind} {prompt : String} {scratch : Scratch}
    (h : InProject home scratch.path) : Newcomer project home (.spawn id kind prompt scratch) := by
  obtain ⟨dir, name, hnamed, hin, hp⟩ := h
  refine ⟨.helper dir name, fun _ _ _ => ⟨hnamed, hin, rfl, by rw [← hp]; rfl, ?_⟩⟩
  rintro s ⟨⟩
  exact hp

theorem newcomers_spawning {orders : List HelperOrder}
    {out : Except AgentError (List Effect) × Desk}
    (hg : project.Grounded d.world.site.files home) (hh : st.Held project home d.agent)
    (ho : st.Owns project d own) (hhelper : d.agent.kind.isHelper = false)
    (he : '/' ∉ project.config.scratchExtension.toList) (h : Spawning project orders d out) :
    ∀ effects, out.1 = .ok effects → ∀ effect ∈ effects, Newcomer project home effect := by
  induction h with
  | done d => rintro effects ⟨⟩ effect ⟨⟩
  | refused order rest d e => rintro effects ⟨⟩
  | @next order rest d d' after scratch r ht hmore ih =>
    obtain ⟨hs, ho', hin⟩ := scratchTaken_stays false hg hh ho hhelper he ht
    have hkind : (hire d').agent.kind.isHelper = false := by
      rw [← scratchTaken_kind ht] at hhelper
      exact hhelper
    intro effects hok effect hmem
    obtain ⟨more, rfl, rfl⟩ := map_eq_ok.mp hok
    rcases List.mem_cons.mp hmem with rfl | hmem
    · exact newcomer_spawn hin
    · exact ih (hg.edit hs.edit) (hire_stays own false hs.held).held ho' hkind
        more rfl effect hmem

theorem newcomer_tasksFrom (n : Nat) (orders : List (AgentId × String)) :
    ∀ effect ∈ tasksFrom n orders, Newcomer project home effect := by
  induction orders generalizing n with
  | nil => rintro effect ⟨⟩
  | cons order rest ih =>
    intro effect hmem
    rcases List.mem_cons.mp hmem with rfl | hmem
    · trivial
    · exact ih (n + 1) effect hmem

/-- The effects of a step, if there is one, ask for agents in the project only. -/
def HandsOn (project : Project) (home : Location) (r : Except AgentError Step) : Prop :=
  ∀ effect ∈ effectsOf r, Newcomer project home effect

theorem creation_handsOn {t : Target} {out : Except AgentError Step × Desk}
    (hh : st.Held project home d.agent) (h : Creation project t d out) :
    HandsOn project home out.1 := by
  cases h with
  | refused e => rintro effect ⟨⟩
  | noteless e ho absent hf hm => rintro effect ⟨⟩
  | made note ho absent free hmade =>
    obtain ⟨dir, rfl⟩ := folder_of_ownEntry hh ho
    rcases ownEntry_cases hh.1 hh.2.2.2.1 ho with ⟨name, hname, rfl⟩ | ⟨-, rfl⟩
    · intro effect hmem
      rw [List.mem_singleton.mp hmem]
      exact newcomer_adopt (hh.1.concat hname) hh.2.1
    · rw [exists?_up] at absent
      cases absent

/-- **Stations are handed on.** Every agent that a directive asks for holds a station in the project
when it is made. -/
theorem newcomers_held {k : Dialect} (x : Directive k)
    (hg : project.Grounded d.world.site.files home) (hh : st.Held project home d.agent)
    (he : '/' ∉ project.config.scratchExtension.toList) :
    ∀ effect ∈ (interpret project x d).1, Newcomer project home effect := by
  change HandsOn project home ((perform project x).run d : Except AgentError Step × Desk).1
  have h := perform_performed project x d
  generalize ((perform project x).run d : Except AgentError Step × Desk) = out at h
  cases h with
  | quiet still silent =>
    intro effect hmem
    rw [silent] at hmem
    cases hmem
  | wrote own' write => rintro effect ⟨⟩
  | created target creation => exact creation_handsOn hh creation
  | deleted target deletion =>
    cases deletion with
    | refused e => rintro effect ⟨⟩
    | unlinked => rintro effect ⟨⟩
    | linked =>
      intro effect hmem
      rw [List.mem_singleton.mp hmem]
      trivial
  | @spawned orders d' after r note still notHelper spawning =>
    obtain ⟨own, ho⟩ := exists_owns project hh he
    obtain ⟨memory, now, ha⟩ := still.agent
    have hkind : d'.agent.kind.isHelper = false := by rw [ha]; exact notHelper
    have hs : Stays project home own false st d d' := unmoved_stays hh still
    cases r with
    | error e => rintro effect ⟨⟩
    | ok effects =>
      exact newcomers_spawning (by rwa [still.site]) hs.held (unmoved_owns ho still) hkind he spawning
        effects rfl
  | handed still children => exact newcomer_tasksFrom _ _
  | finished idle =>
    intro effect hmem
    rw [List.mem_singleton.mp hmem]
    trivial
  | ended still idle =>
    intro effect hmem
    rw [List.mem_singleton.mp hmem]
    trivial

end Arbor.Turn
