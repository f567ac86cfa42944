import Arbor.Proofs.Engine.Slots
import Arbor.Proofs.FileSystem
import Arbor.Roster

/-! # The agents of a project

* `build_eq`: a roster has the manager of the root and the agents below it.
* `staffed_of_build`: agents have numbers of their own, and each child is one of the agents.
* `unused_of_build`: nothing has happened to them yet.
* `Launched.orderly`: an engine that was started with the roster of a project is in order. -/

namespace Arbor

open Turn

namespace Roster

/-! ### What is built -/

/-- Where a folder has its notes, nothing is done for it. -/
theorem prepare_of_notes {files : FileSystem} {dir : Path}
    (notes : files.exists? (Project.docPath dir) = true) : prepare files dir = .ok files := by
  have hensure : Project.ensureDoc files dir = .ok files := if_pos notes
  unfold prepare
  rw [hensure]

/-- A roster that is built has the manager of the root and the agents below it. -/
theorem build_eq {project : Project} {site : Site} {files : FileSystem} {home : Location}
    {first now : Nat} (prepared : prepare site.files project.root = .ok files)
    (walk : files.walk .followed project.root = .ok home) :
    build project site first now =
      (addBelow project site now (files.entries.length + 1) ⟨first⟩ project.root home
        (files.children home) ⟨files, [Agent.fresh ⟨first⟩ .manager
          (project.displayName project.root) (.folder project.root) none now], first + 1⟩).map
        fun b => ({ agents := b.agents, root := ⟨first⟩ }, { site with files := b.files },
          b.nextNumber) := by
  unfold build
  simp only [prepared, walk, bind, Except.bind, Except.toOption, Option.getD_some]
  rfl

/-- The agents so far are idle, have numbers of their own that were given out, and each child of one
of them is one of them. -/
structure Staffed (b : Progress) : Prop where
  distinct : (b.agents.map Agent.id).Nodup
  numbered : ∀ a ∈ b.agents, a.id.number < b.nextNumber
  present : ∀ a ∈ b.agents, ∀ c ∈ a.children, c.2.id ∈ b.agents.map Agent.id
  idle : ∀ a ∈ b.agents, a.task = none

theorem map_id_link (parent : AgentId) (entry : String) (child : ChildLink) (agents : List Agent) :
    (link parent entry child agents).map Agent.id = agents.map Agent.id := by
  rw [link, List.map_map]
  refine List.map_congr_left fun a _ => ?_
  simp only [Function.comp_apply]
  split <;> rfl

/-- An agent after a child was linked: the same but for the children, and these are the old ones or
the new one. -/
theorem mem_link {parent : AgentId} {entry : String} {child : ChildLink} {agents : List Agent}
    {a : Agent} (h : a ∈ link parent entry child agents) :
    ∃ a' ∈ agents, a.id = a'.id ∧ a.task = a'.task ∧
      ∀ c ∈ a.children, c ∈ a'.children ∨ c.2 = child := by
  obtain ⟨a', ha, rfl⟩ := List.mem_map.mp h
  refine ⟨a', ha, ?_⟩
  split
  · refine ⟨rfl, rfl, fun c hc => ?_⟩
    rcases Table.mem_put hc with rfl | hc
    · exact Or.inr rfl
    · exact Or.inl hc
  · exact ⟨rfl, rfl, fun c hc => Or.inl hc⟩

/-- What adding an agent does. -/
theorem add_cases {project : Project} {now : Nat} {parent : AgentId} {kind : Kind} {path : Path}
    {name : String} {b b' : Progress} (h : add project now parent kind path name b = .ok b') :
    ∃ files, (if kind = .manager then prepare b.files path else .ok b.files) = .ok files ∧ b' = {
      files := files
      agents := link parent name { id := ⟨b.nextNumber⟩, kind := kind } b.agents ++
        [Agent.fresh ⟨b.nextNumber⟩ kind (project.displayName path) (scopeOf kind path)
          (some parent) now]
      nextNumber := b.nextNumber + 1 } := by
  unfold add at h
  simp only at h
  split at h
  · next hk =>
    obtain ⟨files, hfiles, h⟩ := bind_eq_ok.mp h
    cases h
    exact ⟨files, (if_pos hk).trans hfiles, rfl⟩
  · next hk =>
    cases h
    exact ⟨b.files, if_neg hk, rfl⟩

theorem Staffed.add {project : Project} {now : Nat} {parent : AgentId} {kind : Kind} {path : Path}
    {name : String} {b b' : Progress} (hb : Staffed b)
    (h : add project now parent kind path name b = .ok b') : Staffed b' := by
  obtain ⟨files, -, rfl⟩ := add_cases h
  constructor
  case distinct =>
    simp only [List.map_append, map_id_link, List.map_singleton]
    rw [List.nodup_append]
    refine ⟨hb.distinct, List.nodup_singleton _, ?_⟩
    rintro c hc d hd rfl
    obtain ⟨a, ha, rfl⟩ := List.mem_map.mp hc
    have hlt := hb.numbered a ha
    rw [List.mem_singleton.mp hd] at hlt
    exact Nat.lt_irrefl _ hlt
  case numbered =>
    intro a ha
    rcases List.mem_append.mp ha with ha | ha
    · obtain ⟨a', ha', hid, -⟩ := mem_link ha
      rw [hid]
      exact Nat.lt_succ_of_lt (hb.numbered a' ha')
    · rw [List.mem_singleton.mp ha]
      exact Nat.lt_succ_self _
  case present =>
    intro a ha c hc
    simp only [List.map_append, map_id_link, List.map_singleton]
    rcases List.mem_append.mp ha with ha | ha
    · obtain ⟨a', ha', -, -, hchildren⟩ := mem_link ha
      rcases hchildren c hc with hc | hc
      · exact List.mem_append_left _ (hb.present a' ha' c hc)
      · rw [hc]
        exact List.mem_append_right _ (List.mem_singleton.mpr rfl)
    · rw [List.mem_singleton.mp ha] at hc
      cases hc
  case idle =>
    intro a ha
    rcases List.mem_append.mp ha with ha | ha
    · obtain ⟨a', ha', -, htask, -⟩ := mem_link ha
      rw [htask]
      exact hb.idle a' ha'
    · rw [List.mem_singleton.mp ha]
      rfl

/-- What adding an agent of an entry keeps, adding all of them keeps. -/
theorem addBelow_keeps {P : Progress → Prop} {project : Project} {site : Site} {now : Nat}
    (keeps : ∀ {parent kind path name b b'}, kind.isHelper = false → P b →
      add project now parent kind path name b = .ok b' → P b')
    {levels : Nat} {parent : AgentId} {dir : Path} {loc : Location}
    {entries : List (String × Entry)} {b b' : Progress} (hb : P b)
    (h : addBelow project site now levels parent dir loc entries b = .ok b') : P b' := by
  induction levels generalizing parent dir loc entries b b' with
  | zero =>
    cases h
    exact hb
  | succ levels ih =>
    refine of_foldlM_eq_ok ?_ hb h
    rintro ⟨name, entry⟩ b b' hb h
    simp only at h
    split at h
    · cases h
      exact hb
    · split at h
      · cases h
        exact hb
      · next kind hkind =>
        have hlasting : kind.isHelper = false := by
          unfold kindOf? at hkind
          split at hkind
          · cases hkind
            rfl
          · split at hkind <;> cases hkind
            rfl
          · cases hkind
        obtain ⟨next, hadd, h⟩ := bind_eq_ok.mp h
        have hnext := keeps hlasting hb hadd
        split at h
        · exact ih hnext h
        · cases h
          exact hnext

/-- Building starts with the manager of the root alone. -/
theorem staffed_start (project : Project) (files : FileSystem) (first now : Nat) :
    Staffed ⟨files, [Agent.fresh ⟨first⟩ .manager (project.displayName project.root)
      (.folder project.root) none now], first + 1⟩ := by
  constructor
  case distinct => exact List.nodup_singleton _
  case numbered =>
    intro a ha
    rw [List.mem_singleton.mp ha]
    exact Nat.lt_succ_self _
  case present =>
    intro a ha c hc
    rw [List.mem_singleton.mp ha] at hc
    cases hc
  case idle =>
    intro a ha
    rw [List.mem_singleton.mp ha]
    rfl

/-- **What is known of the roster of a project.** -/
theorem staffed_of_build {project : Project} {site site' : Site} {first now next : Nat}
    {roster : Roster} (h : build project site first now = .ok (roster, site', next)) :
    ∃ files, Staffed ⟨files, roster.agents, next⟩ := by
  obtain ⟨files, -, h⟩ := bind_eq_ok.mp h
  obtain ⟨b, hbelow, h⟩ := bind_eq_ok.mp h
  cases h
  exact ⟨b.files, addBelow_keeps (P := Staffed) (fun _ hb hadd => hb.add hadd)
    (staffed_start project files first now) hbelow⟩

/-- The root's manager is one of the agents. -/
theorem root_mem_of_build {project : Project} {site site' : Site} {first now next : Nat}
    {roster : Roster} (h : build project site first now = .ok (roster, site', next)) :
    roster.root ∈ roster.agents.map Agent.id := by
  obtain ⟨files, -, h⟩ := bind_eq_ok.mp h
  obtain ⟨b, hbelow, h⟩ := bind_eq_ok.mp h
  cases h
  refine addBelow_keeps (P := fun b => ⟨first⟩ ∈ b.agents.map Agent.id) ?_
    (List.mem_singleton.mpr rfl) hbelow
  intro parent kind path name b b' _ hb hadd
  obtain ⟨files, -, rfl⟩ := add_cases hadd
  rw [List.map_append, map_id_link]
  exact List.mem_append_left _ hb

/-- Nothing has happened to the agents so far, and none is a helper. -/
def Untouched (b : Progress) : Prop := ∀ a ∈ b.agents, a.Unused ∧ a.kind.isHelper = false

theorem Untouched.add {project : Project} {now : Nat} {parent : AgentId} {kind : Kind} {path : Path}
    {name : String} {b b' : Progress} (lasting : kind.isHelper = false) (hb : Untouched b)
    (h : add project now parent kind path name b = .ok b') : Untouched b' := by
  obtain ⟨files, -, rfl⟩ := add_cases h
  intro a ha
  rcases List.mem_append.mp ha with ha | ha
  · obtain ⟨a', ha', rfl⟩ := List.mem_map.mp ha
    obtain ⟨hunused, hkind⟩ := hb a' ha'
    split
    · exact ⟨⟨hunused.queue, hunused.stalled, hunused.context, hunused.task, hunused.delegated,
        hunused.helpers, hunused.memory, hunused.origin, hunused.failures⟩, hkind⟩
    · exact ⟨hunused, hkind⟩
  · rw [List.mem_singleton.mp ha]
    exact ⟨Agent.unused_fresh _ _ _ _ _ _, lasting⟩

/-- **Nothing has happened yet to the agents of a roster.** -/
theorem unused_of_build {project : Project} {site site' : Site} {first now next : Nat}
    {roster : Roster} (h : build project site first now = .ok (roster, site', next)) :
    ∀ a ∈ roster.agents, a.Unused ∧ a.kind.isHelper = false := by
  obtain ⟨files, -, h⟩ := bind_eq_ok.mp h
  obtain ⟨b, hbelow, h⟩ := bind_eq_ok.mp h
  cases h
  refine addBelow_keeps (P := Untouched) Untouched.add ?_ hbelow
  intro a ha
  rw [List.mem_singleton.mp ha]
  exact ⟨Agent.unused_fresh _ _ _ _ _ _, rfl⟩

/-- Nobody in a roster has a scratch file yet. -/
theorem scratchless_of_build {project : Project} {site site' : Site} {first now next : Nat}
    {roster : Roster} (h : build project site first now = .ok (roster, site', next)) :
    ∀ a ∈ roster.agents, a.scratch = none := by
  obtain ⟨files, -, h⟩ := bind_eq_ok.mp h
  obtain ⟨b, hbelow, h⟩ := bind_eq_ok.mp h
  cases h
  refine addBelow_keeps (P := fun b => ∀ a ∈ b.agents, a.scratch = none) ?_ ?_ hbelow
  · intro parent kind path name b b' _ hb hadd a ha
    obtain ⟨files, -, rfl⟩ := add_cases hadd
    rcases List.mem_append.mp ha with ha | ha
    · obtain ⟨a', ha', rfl⟩ := List.mem_map.mp ha
      split
      · exact hb a' ha'
      · exact hb a' ha'
    · rw [List.mem_singleton.mp ha]
      rfl
  · intro a ha
    rw [List.mem_singleton.mp ha]
    rfl

end Roster

/-- An engine that was started with the roster of a project and has not moved yet. -/
inductive Launched : Engine → Prop where
  | intro {project : Project} {site site' : Site} {first now next : Nat} {roster : Roster}
      {templates : Templates} {world : World} {systemRole : Bool}
      (build : Roster.build project site first now = .ok (roster, site', next))
      (number : world.nextNumber = next) :
      Launched (Engine.launch project templates world roster systemRole)

namespace Launched

variable {e : Engine}

/-- Nothing is under way yet. -/
theorem idle (h : Launched e) {s : Slot} (hs : s ∈ e.slots) :
    s.agent.task = none ∧ s.inbox = [] ∧ s.phase.pending = [] := by
  cases h with
  | intro build number =>
    obtain ⟨files, hstaff⟩ := Roster.staffed_of_build build
    obtain ⟨a, ha, rfl⟩ := List.mem_map.mp hs
    exact ⟨hstaff.idle a ha, rfl, rfl⟩

/-- Nothing has happened to an agent yet. -/
theorem newborn (h : Launched e) {s : Slot} (hs : s ∈ e.slots) : s.IsNewborn := by
  cases h with
  | intro build number =>
    obtain ⟨a, ha, rfl⟩ := List.mem_map.mp hs
    obtain ⟨hunused, hkind⟩ := Roster.unused_of_build build a ha
    refine ⟨hunused, rfl, fun hhelper => ?_⟩
    rw [hkind] at hhelper
    cases hhelper

/-- No agent of a roster is a helper. -/
theorem lasting (h : Launched e) {s : Slot} (hs : s ∈ e.slots) :
    s.agent.kind.isHelper = false := by
  cases h with
  | intro build number =>
    obtain ⟨a, ha, rfl⟩ := List.mem_map.mp hs
    exact (Roster.unused_of_build build a ha).2

theorem not_worksFor (h : Launched e) {s : Slot} (hs : s ∈ e.slots) (p : AgentId) :
    ¬ s.WorksFor p := by
  obtain ⟨htask, hinbox, -⟩ := h.idle hs
  rintro (⟨ha, -⟩ | ⟨task, ht⟩)
  · rw [Agent.isActive, htask] at ha
    cases ha
  · rw [hinbox] at ht
    cases ht

theorem newcomers (h : Launched e) {s : Slot} (hs : s ∈ e.slots) : s.newcomers = [] := by
  rw [Slot.newcomers, (h.idle hs).2.2]
  rfl

/-- Agents have numbers of their own that were given out, and children and the root have slots. -/
theorem staffed (h : Launched e) :
    e.ids.Nodup ∧ (∀ s ∈ e.slots, s.id.number < e.world.nextNumber) ∧
      (∀ s ∈ e.slots, ∀ c ∈ s.agent.children, c.2.id ∈ e.ids) ∧ e.root ∈ e.ids := by
  cases h with
  | @intro project site site' first now next roster templates world systemRole build number =>
    obtain ⟨files, hstaff⟩ := Roster.staffed_of_build build
    have hids : (Engine.launch project templates world roster systemRole).ids =
        roster.agents.map Agent.id := by
      rw [Engine.ids, Engine.launch, List.map_map]
      rfl
    have hagent : ∀ s ∈ (Engine.launch project templates world roster systemRole).slots,
        s.agent ∈ roster.agents := by
      intro s hs
      obtain ⟨a, ha, rfl⟩ := List.mem_map.mp hs
      exact ha
    rw [hids]
    exact ⟨hstaff.distinct, fun s hs => number ▸ hstaff.numbered _ (hagent s hs),
      fun s hs => hstaff.present _ (hagent s hs), Roster.root_mem_of_build build⟩

/-- **An engine starts in order.** -/
theorem orderly (h : Launched e) : Orderly e := by
  obtain ⟨hdistinct, hnumbered, hpresent, -⟩ := h.staffed
  constructor
  case distinct => exact hdistinct
  case numbered => exact hnumbered
  case employers => exact fun s hs p hw => absurd hw (h.not_worksFor hs p)
  case promised =>
    intro s hs c hc
    rw [h.newcomers hs] at hc
    cases hc
  case single =>
    intro s hs
    rw [h.newcomers hs]
    exact List.nodup_nil
  case apart =>
    intro s hs t _ c hc
    rw [h.newcomers hs] at hc
    cases hc
  case absent =>
    intro s hs c hc
    rw [h.newcomers hs] at hc
    cases hc
  case helpers =>
    intro s hs c kind prompt scratch hm
    rw [(h.idle hs).2.2] at hm
    cases hm
  case present =>
    rintro s hs c ⟨entry, link, hget, rfl⟩
    exact Or.inl (hpresent s hs _ (Table.mem_of_get? hget))
  case handing =>
    intro s hs c task hm
    rw [(h.idle hs).2.2] at hm
    cases hm

/-- **What holds of the slots of all states of a run:** what holds of every agent that has done
nothing yet, and stays as its slot fares on. -/
theorem slots_follow (h : Launched e) {P : List Move → Slot → Prop}
    (new : ∀ ran s, (∀ deed ∈ e.trace (fun e m => e.deed m s.id) ran, deed = .other) →
      s.IsNewborn → P ran s)
    (step : ∀ ran m, ∀ s ∈ (e.follow ran).slots, ∀ s', s.Fares (e.follow ran) m s' →
      P ran s → P (ran ++ [m]) s') :
    ∀ moves, ∀ s ∈ (e.follow moves).slots, P moves s := by
  refine h.orderly.slots_follow (fun s hs => ?_) (fun ran m s absent newborn => ?_) step
  · exact new [] s (fun deed hd => by cases hd) (h.newborn hs)
  · exact new (ran ++ [m]) s (h.orderly.deeds_absent absent m) newborn

end Launched

/-! ### A small project -/

open FileSystem

/-- A project with one file in it. -/
def shed : FileSystem :=
  ⟨[(["p"], .folder), (["p", "a"], .file "".toUTF8), (["p", "p_README.md"], .file "".toUTF8)]⟩

/-- The project in the folder `/p`, whose notes are not written anew. -/
def shedProject : Project where
  root := pathOf ["p"]
  config := { Config.standard "key" "model" with refreshDocs := false }

/-- Its manager and its coder. -/
def shedRoster : Roster where
  agents :=
    [{ Agent.fresh ⟨0⟩ .manager "." (.folder ⟨"/p"⟩) none 0 with
        children := [("a", ⟨⟨1⟩, .coder⟩)] },
      Agent.fresh ⟨1⟩ .coder "a" (.file ⟨"/p/a"⟩) (some ⟨0⟩) 0]
  root := ⟨0⟩

/-- The engine of the project. -/
def shedStart : Engine :=
  .launch shedProject { absent := [] } (.start shed [] [] 2) shedRoster true

theorem shed_walk_notes :
    shed.walk .followed (Project.docPath shedProject.root) = .ok ["p", "p_README.md"] := by
  decide +kernel

theorem shed_build :
    Roster.build shedProject ⟨shed, []⟩ 0 0 = .ok (shedRoster, ⟨shed, []⟩, 2) := by
  have hwalk : shed.walk .followed shedProject.root = .ok ["p"] := by decide +kernel
  have hchildren : shed.children ["p"] =
      [("a", .file "".toUTF8), ("p_README.md", .file "".toUTF8)] :=
    children_of_pairwise rfl (by decide +kernel)
  have hnotes := exists?_of_walk shed_walk_notes (by decide +kernel)
  refine Eq.trans (Roster.build_eq (Roster.prepare_of_notes hnotes) hwalk) ?_
  rw [hchildren]
  rfl

theorem shed_launched : Launched shedStart := .intro shed_build rfl

end Arbor
