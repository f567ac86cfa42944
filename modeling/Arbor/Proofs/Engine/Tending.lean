import Arbor.Proofs.Engine.Kinship
import Arbor.Proofs.Roster
import Arbor.Proofs.Turn.Upkeep

/-! # Growing and shrinking the tree of agents

Managers make and remove entries one after the other, and each time the agents of the entries are
added or let go. In between the agents are one step behind the files.

* `mem_subtree_iff`: who is let go with an agent is at its location or below it.
* `Tends`: a move of a run in which entries are made and removed.
* `Tended`, `Tended.step`: how far the agents are behind the files, and that a move keeps it so. -/

namespace Arbor

open FileSystem Directive Turn

variable {e e' : Engine} {m : Move} {s s' : Slot} {project : Project} {home loc : Location}
  {D : Location → Kind → Prop} {who : Location → AgentId} {k : Kind}

/-! ### What of slots concerns the tree -/

/-- What of a slot concerns the tree of agents. -/
def Slot.stature (s : Slot) : Bool × (Nature × Table ChildLink) × List AgentId :=
  (s.listed, s.agent.figure, s.agent.helpers)

namespace Engine

theorem agents_figure (e : Engine) :
    e.agents.map Agent.figure =
      ((e.slots.map Slot.stature).filter fun x => x.1).map fun x => x.2.1 := by
  rw [agents, List.filter_map, List.map_map, List.map_map]
  rfl

theorem agents_congr (slots : e'.slots = e.slots) : e'.agents = e.agents := by
  rw [agents, slots, agents]

theorem figure_filter (ids : List AgentId) (agents : List Agent) :
    (agents.filter fun a => !ids.contains a.id).map Agent.figure =
      (agents.map Agent.figure).filter fun f => !ids.contains f.1.id := by
  rw [List.filter_map]
  rfl

theorem listed?_stature (e : Engine) (id : AgentId) :
    (e.listed? id).map Slot.stature =
      (e.slots.map Slot.stature).find? fun x => x.2.1.1.id = id && x.1 := by
  rw [listed?, List.find?_map]
  rfl

/-- Who is below an agent is a matter of these. -/
theorem subtree_congr (same : e'.slots.map Slot.stature = e.slots.map Slot.stature) (levels : Nat)
    (id : AgentId) : e'.subtree levels id = e.subtree levels id := by
  induction levels generalizing id with
  | zero => rfl
  | succ levels ih =>
    have hfound : (e'.listed? id).map Slot.stature = (e.listed? id).map Slot.stature := by
      rw [listed?_stature, listed?_stature, same]
    unfold subtree
    cases hlisted : e.listed? id with
    | none =>
      rw [hlisted, Option.map_none, Option.map_eq_none_iff] at hfound
      rw [hfound]
    | some s =>
      rw [hlisted, Option.map_some, Option.map_eq_some_iff] at hfound
      obtain ⟨s', hs', hstature⟩ := hfound
      have hchildren : s'.agent.children = s.agent.children := congrArg (fun x => x.2.1.2) hstature
      have hhelpers : s'.agent.helpers = s.agent.helpers := congrArg (fun x => x.2.2) hstature
      rw [hs']
      simp only [below, hchildren, hhelpers, List.cons.injEq, true_and]
      exact List.flatMap_congr fun c _ => ih c

theorem mem_agents {a : Agent} : a ∈ e.agents ↔ ∃ s ∈ e.slots, s.listed = true ∧ s.agent = a := by
  simp [agents, and_assoc]

/-- The agents after one slot was put in the place of another. -/
theorem agents_swap {mid : Slot} (distinct : e.ids.Nodup) (hs : s ∈ e.slots) (id : mid.id = s.id)
    (listed : mid.listed = s.listed) :
    (e.swap mid).agents = e.agents.map fun a => if a.id = s.id then mid.agent else a := by
  have hlisted : ∀ t ∈ e.slots, (if t.id = mid.id then mid else t).listed = t.listed := by
    intro t ht
    split
    · next hid => rw [eq_of_id_eq distinct hs ht (hid.trans id), listed]
    · rfl
  unfold agents swap
  simp only [List.filter_map, List.map_map]
  rw [show e.slots.filter (Slot.listed ∘ fun t => if t.id = mid.id then mid else t) =
    e.slots.filter Slot.listed from List.filter_congr hlisted]
  refine List.map_congr_left fun t _ => ?_
  simp only [Function.comp_apply, id]
  split
  · next hid => exact (if_pos hid).symm
  · next hid => exact (if_neg hid).symm

end Engine

/-! ### Who is let go with an agent -/

/-- **Who is let go with the agent of a location:** whoever is there or below, as far as all of them
are listed and the way down is not too long. -/
theorem mem_subtree_iff {levels : Nat} {id : AgentId}
    (listed : ∀ l k', D l k' → loc <+: l → ∃ s, e.listed? (who l) = some s ∧
      Figure project home D who l k' s.agent ∧ s.agent.helpers = [])
    (here : D loc k) (up : ∀ l more k', D (l ++ more) k' → loc <+: l → ∃ k'', D l k'')
    (deep : ∀ l k', D l k' → loc <+: l → l.length < loc.length + levels) :
    id ∈ e.subtree levels (who loc) ↔ ∃ l k', D l k' ∧ loc <+: l ∧ who l = id := by
  induction levels generalizing loc k with
  | zero => exact absurd (deep loc k here List.prefix_rfl) (by simp)
  | succ levels ih =>
    obtain ⟨s, hs, hfigure, hhelpers⟩ := listed loc k here List.prefix_rfl
    have hinner : ∀ {n k'}, D (loc ++ [n]) k' →
        (id ∈ e.subtree levels (who (loc ++ [n])) ↔
          ∃ l k', D l k' ∧ loc ++ [n] <+: l ∧ who l = id) := by
      intro n k' hd
      have hp : loc <+: loc ++ [n] := List.prefix_append _ _
      refine ih (fun l k' hl hbelow => listed l k' hl (hp.trans hbelow)) hd
        (fun l more k' hl hbelow => up l more k' hl (hp.trans hbelow)) fun l k' hl hbelow => ?_
      have hlt := deep l k' hl (hp.trans hbelow)
      simp only [List.length_append, List.length_singleton]
      omega
    unfold Engine.subtree
    rw [hs]
    simp only [Engine.below, hhelpers, List.append_nil, List.mem_cons, List.mem_flatMap,
      List.mem_map]
    constructor
    · rintro (rfl | ⟨c, ⟨⟨n, link⟩, hlink, rfl⟩, hid⟩)
      · exact ⟨loc, k, here, List.prefix_rfl, rfl⟩
      · obtain ⟨hd, hwho⟩ := (hfigure.children n link).mp hlink
        simp only [hwho] at hid
        obtain ⟨l, k', hl, hbelow, rfl⟩ := (hinner hd).mp hid
        exact ⟨l, k', hl, (List.prefix_append _ _).trans hbelow, rfl⟩
    · rintro ⟨l, k', hl, ⟨more, rfl⟩, rfl⟩
      cases more with
      | nil => exact Or.inl (by rw [List.append_nil])
      | cons n more =>
        have hsplit : loc ++ n :: more = loc ++ [n] ++ more := by simp
        obtain ⟨k'', hd⟩ := up (loc ++ [n]) more k' (hsplit ▸ hl) (List.prefix_append _ _)
        refine Or.inr ⟨who (loc ++ [n]), ⟨(n, ⟨who (loc ++ [n]), k''⟩),
          (hfigure.children n _).mpr ⟨hd, rfl⟩, rfl⟩, ?_⟩
        exact (hinner hd).mpr ⟨loc ++ n :: more, k', hl, by simp, rfl⟩

/-! ### Runs in which entries are made and removed -/

/-- **The turn of an agent makes or removes an entry:** the agent is listed, nothing is left to be
applied, the target is plain, and no file operation fails. -/
def Engine.Tills (e : Engine) (id : AgentId) (prompt response : String) : Prop :=
  ∃ s x t, e.listed? id = some s ∧ (∀ t ∈ e.slots, t.phase.pending = []) ∧
    Directive.parse s.agent.kind.dialect response = .ok x ∧ target? x = some t ∧ t.Plain ∧
    ∀ action name error, ((perform e.project x).run
      (recorded prompt response ⟨{ s.agent with failures := 0 }, e.world⟩)).1 ≠
        .error (.io action name (.os error))

/-- **A move of a run in which entries are made and removed:** whatever turn ends makes or removes one,
no turn fails, no master is put above the root, and nobody else changes the files. -/
structure Tends (e : Engine) (m : Move) : Prop where
  tills : ∀ id prompt response, e.deed m id = .complete prompt response →
    e.Tills id prompt response
  goes : ∀ id, (∀ error, e.deed m id ≠ .fail error) ∧ e.deed m id ≠ .reset
  unled : ∀ systemRole, m ≠ .attachMaster systemRole
  steady : ∀ world, m = .setWorld world → world.site = e.world.site

/-- Whether the turn of an agent makes or removes an entry, and all of it goes well. -/
def Engine.tills (e : Engine) (id : AgentId) (prompt response : String) : Bool :=
  (e.listed? id).any fun s =>
    (e.slots.all fun t => t.phase.pending.isEmpty) &&
    (Directive.parse s.agent.kind.dialect response).toOption.any fun x =>
      (target? x).any (fun t => (entryName t).toOption = some t.name && Text.trim t.name = t.name &&
        t.name.toList.head? ≠ some '.' && !Project.ignoredNames.contains t.name) &&
      ((perform e.project x).run (recorded prompt response
        ⟨{ s.agent with failures := 0 }, e.world⟩)).1.toOption.isSome

/-- Whether a move has no agent do anything else. -/
def Engine.tends (e : Engine) (m : Move) : Bool :=
  m.actor?.all fun id =>
    match e.deed m id with
    | .complete prompt response => e.tills id prompt response
    | .fail _ | .reset => false
    | _ => true

theorem toOption_eq_some {ε α : Type} {x : Except ε α} {a : α} (h : x.toOption = some a) :
    x = .ok a := by
  cases x with
  | error => cases h
  | ok b => exact congrArg Except.ok (Option.some.inj h)

theorem Engine.Tills.of_tills {id : AgentId} {prompt response : String}
    (h : e.tills id prompt response = true) : e.Tills id prompt response := by
  simp only [Engine.tills, Option.any_eq_true, Bool.and_eq_true, List.all_eq_true,
    List.isEmpty_iff, decide_eq_true_eq, Bool.not_eq_true', List.contains_eq_mem,
    decide_eq_false_iff_not] at h
  obtain ⟨s, hs, idle, x, hx, ⟨t, ht, ⟨⟨hentry, htrim⟩, hdot⟩, hignored⟩, hdone⟩ := h
  refine ⟨s, x, t, hs, idle, toOption_eq_some hx, ht,
    ⟨toOption_eq_some hentry, htrim, hdot, hignored⟩, fun action name error hfail => ?_⟩
  simp [hfail, Except.toOption] at hdone

theorem Tends.of_tends (h : e.tends m = true) (unled : ∀ systemRole, m ≠ .attachMaster systemRole)
    (steady : ∀ world, m = .setWorld world → world.site = e.world.site) : Tends e m := by
  have hown : ∀ id, e.deed m id ≠ .other → (match e.deed m id with
      | .complete prompt response => e.tills id prompt response
      | .fail _ | .reset => false
      | _ => true) = true := by
    intro id hbusy
    have actor : m.actor? = some id := by
      by_contra hother
      exact hbusy (Engine.deed_eq_other hother)
    simpa [Engine.tends, actor] using h
  refine ⟨fun id prompt response hdeed => ?_, fun id => ⟨fun error hdeed => ?_, fun hdeed => ?_⟩,
    unled, steady⟩
  all_goals have hdoes := hown id (by rw [hdeed]; simp); rw [hdeed] at hdoes
  · exact .of_tills hdoes
  · cases hdoes
  · cases hdoes

/-! ### How far the agents are -/

/-- **How far the agents are behind the files,** where the locations of `D` are to have an agent:
nothing is left to do, or one agent is to be added, or one to be let go. -/
inductive Upkeep (home : Location) (D : Location → Kind → Prop) (e : Engine) : Prop where
  | done (who : Location → AgentId) (idle : ∀ t ∈ e.slots, t.phase.pending = [])
      (mirror : Mirror e.project home D who e.agents)
  | adopts (who : Location → AgentId) {s : Slot} {id : AgentId} {k : Kind} {path : Path}
      (mem : s ∈ e.slots) (pending : s.phase.pending = [.adopt id k path])
      (others : ∀ t ∈ e.slots, t.id ≠ s.id → t.phase.pending = [])
      (mirror : ∀ now, Mirror e.project home D who (e.agents ++
        [.fresh id k (e.project.displayName path) (Roster.scopeOf k path) (some s.id) now]))
  | releases (who : Location → AgentId) {s : Slot} {child : AgentId}
      (mem : s ∈ e.slots) (pending : s.phase.pending = [.release child])
      (others : ∀ t ∈ e.slots, t.id ≠ s.id → t.phase.pending = [])
      (mirror : Mirror e.project home D who
        (e.agents.filter fun a => !(e.subtree e.slots.length child).contains a.id))

/-- **The files are in order, and the agents as far as they are to be.** There are no helpers. -/
structure Tended (home : Location) (e : Engine) : Prop where
  tidy : Tidy e.project home e.world.site
  helpers : ∀ t ∈ e.slots, t.agent.helpers = []
  upkeep : Upkeep home (Manned e.project e.world.site home) e

/-- Nothing changes of what concerns the tree and the files. -/
structure Quiet (e e' : Engine) : Prop where
  slots : e'.slots.map (fun t => (t.stature, t.phase.pending)) =
    e.slots.map fun t => (t.stature, t.phase.pending)
  site : e'.world.site = e.world.site
  project : e'.project = e.project

namespace Quiet

theorem stature (h : Quiet e e') : e'.slots.map Slot.stature = e.slots.map Slot.stature := by
  have hfirst := congrArg (List.map Prod.fst) h.slots
  rw [List.map_map, List.map_map] at hfirst
  exact hfirst

theorem figures (h : Quiet e e') : e'.agents.map Agent.figure = e.agents.map Agent.figure := by
  rw [Engine.agents_figure, Engine.agents_figure, h.stature]

/-- The slot that a slot was. -/
theorem before (h : Quiet e e') {t : Slot} (ht : t ∈ e'.slots) :
    ∃ u ∈ e.slots, u.stature = t.stature ∧ u.phase.pending = t.phase.pending := by
  have hm : (t.stature, t.phase.pending) ∈ e.slots.map fun t => (t.stature, t.phase.pending) :=
    h.slots ▸ List.mem_map_of_mem ht
  obtain ⟨u, hu, heq⟩ := List.mem_map.mp hm
  exact ⟨u, hu, (Prod.mk.inj heq).1, (Prod.mk.inj heq).2⟩

/-- The slot that a slot becomes. -/
theorem after (h : Quiet e e') {t : Slot} (ht : t ∈ e.slots) :
    ∃ u ∈ e'.slots, u.stature = t.stature ∧ u.phase.pending = t.phase.pending := by
  have hm : (t.stature, t.phase.pending) ∈ e'.slots.map fun t => (t.stature, t.phase.pending) :=
    h.slots ▸ List.mem_map_of_mem ht
  obtain ⟨u, hu, heq⟩ := List.mem_map.mp hm
  exact ⟨u, hu, (Prod.mk.inj heq).1, (Prod.mk.inj heq).2⟩

end Quiet

theorem Slot.id_of_stature (h : s'.stature = s.stature) : s'.id = s.id :=
  congrArg (fun x => x.2.1.1.id) h

/-- What does not concern the tree does not change how far the agents are. -/
theorem Upkeep.quiet (h : Upkeep home D e) (quiet : Quiet e e') : Upkeep home D e' := by
  have others : ∀ {s s' : Slot}, s'.stature = s.stature →
      (∀ t ∈ e.slots, t.id ≠ s.id → t.phase.pending = []) →
      ∀ t ∈ e'.slots, t.id ≠ s'.id → t.phase.pending = [] := by
    intro s s' hstature hothers t ht hne
    obtain ⟨u, hu, hus, hup⟩ := quiet.before ht
    rw [← hup]
    refine hothers u hu fun hid => hne ?_
    rw [Slot.id_of_stature hstature, ← hid, Slot.id_of_stature hus]
  cases h with
  | done who idle mirror =>
    refine .done who (fun t ht => ?_) ((quiet.project ▸ mirror).congr quiet.figures)
    obtain ⟨u, hu, -, hup⟩ := quiet.before ht
    rw [← hup]
    exact idle u hu
  | @adopts who s id k path mem pending hothers mirror =>
    obtain ⟨s', hs', hstature, hpending⟩ := quiet.after mem
    refine .adopts who hs' (hpending.trans pending) (others hstature hothers) fun now => ?_
    rw [quiet.project, Slot.id_of_stature hstature]
    exact (mirror now).congr (by rw [List.map_append, List.map_append, quiet.figures])
  | @releases who s child mem pending hothers mirror =>
    obtain ⟨s', hs', hstature, hpending⟩ := quiet.after mem
    refine .releases who hs' (hpending.trans pending) (others hstature hothers) ?_
    have hlength : e'.slots.length = e.slots.length := by
      simpa using congrArg List.length quiet.slots
    rw [quiet.project, hlength, Engine.subtree_congr quiet.stature]
    refine mirror.congr ?_
    rw [Engine.figure_filter, Engine.figure_filter, quiet.figures]

theorem Tended.quiet (h : Tended home e) (quiet : Quiet e e') : Tended home e' := by
  refine ⟨?_, fun t ht => ?_, ?_⟩
  · rw [quiet.project, quiet.site]
    exact h.tidy
  · obtain ⟨u, hu, hus, -⟩ := quiet.before ht
    exact (congrArg (fun x => x.2.2) hus).symm.trans (h.helpers u hu)
  · rw [quiet.project, quiet.site]
    exact h.upkeep.quiet quiet

/-! ### Moves that do not concern the tree -/

theorem Quiet.of_slots (slots : e'.slots = e.slots) (site : e'.world.site = e.world.site)
    (project : e'.project = e.project) : Quiet e e' := ⟨by rw [slots], site, project⟩

theorem Quiet.of_send {id : AgentId} {envelope : Envelope}
    (slots : e'.slots = (e.send id envelope).slots) (site : e'.world.site = e.world.site)
    (project : e'.project = e.project) : Quiet e e' := by
  refine ⟨?_, site, project⟩
  rw [slots, Engine.send, Engine.modifySlot, List.map_map]
  refine List.map_congr_left fun t _ => ?_
  simp only [Function.comp_apply]
  split <;> rfl

theorem Quiet.of_swap {mid : Slot} (distinct : e.ids.Nodup) (hs : s ∈ e.slots)
    (stature : mid.stature = s.stature) (pending : mid.phase.pending = s.phase.pending)
    (slots : e'.slots = (e.swap mid).slots) (site : e'.world.site = e.world.site)
    (project : e'.project = e.project) : Quiet e e' := by
  refine ⟨?_, site, project⟩
  rw [slots, Engine.swap, List.map_map]
  refine List.map_congr_left fun t ht => ?_
  simp only [Function.comp_apply]
  split
  · next hid =>
    obtain rfl := Engine.eq_of_id_eq distinct hs ht (hid.trans (Slot.id_of_stature stature))
    rw [stature, pending]
  · rfl

/-- What comes from outside does not concern the tree. -/
theorem Tends.quiet (h : Tends e m) (outside : m.actor? = none) : Quiet e (e.step m) := by
  have same : ∀ {e' : Engine}, e'.slots = e.slots → e'.world.site = e.world.site →
      e'.project = e.project → Quiet e e' := Quiet.of_slots
  cases m with
  | advance id => cases outside
  | answer id reply => cases outside
  | prompt id text =>
    unfold Engine.step Engine.sendPrompt
    simp only
    split
    · exact .of_send rfl rfl rfl
    · exact same rfl rfl rfl
  | enterRun id text => exact same rfl rfl rfl
  | admitRun run =>
    unfold Engine.step Engine.admitRun
    simp only
    split
    · split
      · exact same rfl rfl rfl
      · split <;> exact same rfl rfl rfl
    · exact same rfl rfl rfl
  | registerRun run =>
    unfold Engine.step Engine.registerRun
    simp only
    split <;> exact same rfl rfl rfl
  | dispatchRun run =>
    unfold Engine.step Engine.dispatchRun
    simp only
    split
    · split
      · exact .of_send rfl rfl rfl
      · exact same rfl rfl rfl
    · exact same rfl rfl rfl
  | attachMaster systemRole => exact absurd rfl (h.unled systemRole)
  | setWorld world => exact same rfl (h.steady world rfl) rfl
  | shutdown => exact same rfl rfl rfl

theorem Agent.receive_figure (a : Agent) (envelope : Envelope) (now : Nat) :
    (a.receive envelope now).figure = a.figure := by
  rw [Agent.figure, Agent.figure, (a.receive_frame envelope now).1, a.receive_children]

/-! ### Adding and letting go -/

/-- Whoever has something left to do is the one that has. -/
theorem eq_of_pending {x : Slot} (distinct : e.ids.Nodup) (hs : s ∈ e.slots) (hx : x ∈ e.slots)
    (others : ∀ t ∈ e.slots, t.id ≠ x.id → t.phase.pending = []) (busy : s.phase.pending ≠ []) :
    s = x := by
  by_contra hne
  refine busy (others s hs fun hid => hne ?_)
  exact Engine.eq_of_id_eq distinct hx hs hid

/-- Nothing is left to do behind the last effect. -/
theorem idle_swap {t : Slot} {retiring : Bool}
    (others : ∀ t ∈ e.slots, t.id ≠ s.id → t.phase.pending = [])
    (ht : t ∈ (e.swap { s with phase := .applying [] retiring }).slots) : t.phase.pending = [] := by
  have hid : ({ s with phase := .applying [] retiring } : Slot).id = s.id := rfl
  rcases mem_swap hid ht with rfl | ⟨ht, hne⟩
  · rfl
  · exact others t ht hne

/-- A slot that goes on to another phase keeps what concerns the tree. -/
theorem Engine.swap_phase (distinct : e.ids.Nodup) (hs : s ∈ e.slots) (phase : Phase) :
    (e.swap { s with phase := phase }).slots.map Slot.stature = e.slots.map Slot.stature := by
  rw [Engine.swap, List.map_map]
  refine List.map_congr_left fun t ht => ?_
  simp only [Function.comp_apply]
  split
  · next hid =>
    obtain rfl := Engine.eq_of_id_eq distinct hs ht hid
    rfl
  · rfl

theorem Engine.swap_phase_figures (distinct : e.ids.Nodup) (hs : s ∈ e.slots) (phase : Phase) :
    (e.swap { s with phase := phase }).agents.map Agent.figure = e.agents.map Agent.figure := by
  rw [agents_figure, agents_figure, swap_phase distinct hs]

theorem Engine.agents_add (e : Engine) (a : Agent) (systemRole : Bool) (inbox : List Envelope) :
    { e with slots := e.slots ++ [Slot.newborn a systemRole inbox] }.agents = e.agents ++ [a] := by
  simp [agents, Slot.newborn]

theorem Engine.agents_unlist (e : Engine) (ids : List AgentId) :
    (e.unlist ids).agents = e.agents.filter fun a => !ids.contains a.id := by
  unfold agents unlist
  simp only [List.filter_map, List.map_map, List.filter_filter]
  have hlisted : ∀ t ∈ e.slots,
      (Slot.listed ∘ fun t : Slot => if ids.contains t.id then { t with listed := false } else t) t =
        (!ids.contains t.id && t.listed) := by
    intro t _
    simp only [Function.comp_apply]
    cases ids.contains t.id <;> simp
  rw [List.filter_congr hlisted]
  refine List.map_congr_left fun t _ => ?_
  simp only [Function.comp_apply]
  split <;> rfl

/-- **The agent of a new entry is added,** and nothing is left to do. -/
theorem Upkeep.adopted {id : AgentId} {path : Path} {rest : List Effect} {retiring systemRole : Bool}
    {now : Nat} (h : Upkeep home D e) (distinct : e.ids.Nodup) (hs : s ∈ e.slots)
    (pending : s.phase.pending = .adopt id k path :: rest)
    (slots : e'.slots = (e.swap { s with phase := .applying rest retiring }).slots ++
      [.newborn (.fresh id k (e.project.displayName path) (Roster.scopeOf k path) (some s.id) now)
        systemRole []])
    (same : e'.project = e.project) : Upkeep home D e' := by
  have busy : s.phase.pending ≠ [] := by
    rw [pending]
    simp
  cases h with
  | done who idle mirror => exact absurd (idle s hs) busy
  | releases who mem hpending others mirror =>
    obtain rfl := eq_of_pending distinct hs mem others busy
    rw [pending] at hpending
    cases hpending
  | adopts who mem hpending others mirror =>
    obtain rfl := eq_of_pending distinct hs mem others busy
    rw [pending] at hpending
    cases hpending
    refine .done who (fun t ht => ?_) ?_
    · rw [slots] at ht
      rcases List.mem_append.mp ht with ht | ht
      · exact idle_swap others ht
      · rw [List.mem_singleton.mp ht]
        rfl
    · have hagents := Engine.agents_add (e.swap { s with phase := .applying [] retiring })
        (.fresh id k (e.project.displayName path) (Roster.scopeOf k path) (some s.id) now)
        systemRole []
      rw [same, (Engine.agents_congr slots).trans hagents]
      refine (mirror now).congr ?_
      rw [List.map_append, List.map_append, Engine.swap_phase_figures distinct hs]

/-- **The agent of a removed entry is let go,** with everybody below it, and nothing is left to do. -/
theorem Upkeep.released {child : AgentId} {rest : List Effect} {retiring : Bool}
    (h : Upkeep home D e) (distinct : e.ids.Nodup) (hs : s ∈ e.slots)
    (pending : s.phase.pending = .release child :: rest)
    (slots : e'.slots = ((e.swap { s with phase := .applying rest retiring }).unlist
      ((e.swap { s with phase := .applying rest retiring }).subtree e.slots.length child)).slots)
    (same : e'.project = e.project) : Upkeep home D e' := by
  have busy : s.phase.pending ≠ [] := by
    rw [pending]
    simp
  cases h with
  | done who idle mirror => exact absurd (idle s hs) busy
  | adopts who mem hpending others mirror =>
    obtain rfl := eq_of_pending distinct hs mem others busy
    rw [pending] at hpending
    cases hpending
  | releases who mem hpending others mirror =>
    obtain rfl := eq_of_pending distinct hs mem others busy
    rw [pending] at hpending
    cases hpending
    refine .done who (fun t ht => ?_) ?_
    · rw [slots] at ht
      obtain ⟨u, hu, rfl⟩ := List.mem_map.mp ht
      have hidle : u.phase.pending = [] := idle_swap others hu
      split <;> exact hidle
    · rw [same, (Engine.agents_congr slots).trans (Engine.agents_unlist _ _),
        Engine.subtree_congr (Engine.swap_phase distinct hs _)]
      refine mirror.congr ?_
      rw [Engine.figure_filter, Engine.figure_filter, Engine.swap_phase_figures distinct hs]

/-! ### Making and removing entries -/

/-- A directive with a target makes or removes an entry. -/
theorem perform_target {d : Dialect} {x : Directive d} {t : Target} (h : target? x = some t)
    (project : Project) (desk : Desk) :
    Creation project t desk ((perform project x).run desk) ∨
      Deletion project t desk ((perform project x).run desk) := by
  cases x with
  | create target content =>
    obtain rfl := Option.some.inj h
    exact Or.inl (create_run project target content desk)
  | delete target =>
    obtain rfl := Option.some.inj h
    exact Or.inr (delete_run project target desk)
  | _ => cases h

/-- Whoever has entries of its own is the manager of a folder. -/
theorem Figure.manages {a : Agent} {site : Site} {t : Target} {named : String × Path}
    (h : Figure project home D who loc k a) (own : ownEntry project site a t = .ok named) :
    k = .manager ∧ a.scope = .folder (pathOf loc) := by
  have hscope := h.scope
  unfold Roster.scopeOf at hscope
  split at hscope
  · next hk => exact ⟨hk, hscope⟩
  · simp only [ownEntry, hscope, Scope.folder?] at own
    cases own

/-- The agents after one of them has come to look otherwise. -/
theorem Engine.swap_figures {mid : Slot} {f : Agent → Agent} (distinct : e.ids.Nodup)
    (hs : s ∈ e.slots) (listed : mid.listed = s.listed) (id : mid.id = s.id)
    (figure : mid.agent.figure = (f s.agent).figure) :
    (e.swap mid).agents.map Agent.figure =
      (e.agents.map fun a => if a.id = s.id then f a else a).map Agent.figure := by
  rw [agents_swap distinct hs id listed, List.map_map, List.map_map]
  refine List.map_congr_left fun a ha => ?_
  obtain ⟨t, ht, -, rfl⟩ := mem_agents.mp ha
  simp only [Function.comp_apply]
  by_cases hid : t.agent.id = s.id
  · obtain rfl := eq_of_id_eq distinct hs ht hid
    rw [if_pos hid, if_pos hid, figure]
  · rw [if_neg hid, if_neg hid]

/-- The slot of the agent of a location. -/
theorem Mirror.slot (mirror : Mirror project home D who e.agents) (hd : D loc k) :
    ∃ t ∈ e.slots, t.listed = true ∧ t.id = who loc ∧
      Figure project home D who loc k t.agent := by
  obtain ⟨a, ha, hf⟩ := mirror.manned loc k hd
  obtain ⟨t, ht, hlisted, rfl⟩ := Engine.mem_agents.mp ha
  exact ⟨t, ht, hlisted, hf.id, hf⟩

/-- What a manager that is listed has made of its slot. -/
structure Turned (e : Engine) (s mid : Slot) (e' : Engine) : Prop where
  distinct : e.ids.Nodup
  mem : s ∈ e.slots
  listed : s.listed = true
  idle : ∀ t ∈ e.slots, t.phase.pending = []
  nature : mid.agent.nature = s.agent.nature
  helpers : mid.agent.helpers = s.agent.helpers
  stays : mid.listed = s.listed
  slots : e'.slots = (e.swap mid).slots
  project : e'.project = e.project

namespace Turned

variable {mid : Slot}

theorem id_eq (h : Turned e s mid e') : mid.id = s.id := congrArg Nature.id h.nature

theorem mem_after (h : Turned e s mid e') : mid ∈ e'.slots := by
  rw [h.slots]
  exact List.mem_map.mpr ⟨s, h.mem, if_pos h.id_eq.symm⟩

theorem others (h : Turned e s mid e') : ∀ t ∈ e'.slots, t.id ≠ mid.id → t.phase.pending = [] := by
  intro t ht hne
  rw [h.slots] at ht
  rcases mem_swap h.id_eq ht with rfl | ⟨ht, -⟩
  · exact absurd rfl hne
  · exact h.idle t ht

theorem helperless (h : Turned e s mid e') (none : ∀ t ∈ e.slots, t.agent.helpers = []) :
    ∀ t ∈ e'.slots, t.agent.helpers = [] := by
  intro t ht
  rw [h.slots] at ht
  rcases mem_swap h.id_eq ht with rfl | ⟨ht, -⟩
  · exact h.helpers.trans (none s h.mem)
  · exact none t ht

/-- Only the manager's entries are others than before. -/
theorem figures {a : Agent} {f : Table ChildLink → Table ChildLink} (h : Turned e s mid e')
    (figure : a.figure = s.agent.figure) (children : mid.agent.children = f a.children) :
    e'.agents.map Agent.figure = (e.agents.map fun b =>
      if b.id = s.id then { b with children := f b.children } else b).map Agent.figure := by
  have hsame : a.children = s.agent.children := congrArg Prod.snd figure
  rw [Engine.agents_congr h.slots]
  refine Engine.swap_figures h.distinct h.mem h.stays h.id_eq ?_
  rw [Agent.figure, h.nature, children, hsame]
  rfl

/-- The mirror shows where the manager stands, and what a plain target means to it. -/
theorem stands {a : Agent} {t : Target} {entry : String} {path : Path} (h : Turned e s mid e')
    (tended : Tended home e) (figure : a.figure = s.agent.figure) (plain : t.Plain)
    (own : ownEntry e.project e.world.site a t = .ok (entry, path)) :
    ∃ who loc, Mirror e.project home (Manned e.project e.world.site home) who e.agents ∧
      Manned e.project e.world.site home loc .manager ∧ s.id = who loc ∧
      Figure e.project home (Manned e.project e.world.site home) who loc .manager a ∧
      entry = t.name ∧ IsName t.name ∧ path = pathOf (loc ++ [t.name]) ∧
      e.project.isDoc path = false := by
  cases tended.upkeep with
  | adopts who mem pending => exact absurd (h.idle _ mem) (by rw [pending]; simp)
  | releases who mem pending => exact absurd (h.idle _ mem) (by rw [pending]; simp)
  | done who idle mirror =>
    obtain ⟨loc, k, hd, hf⟩ :=
      mirror.placed s.agent (Engine.mem_agents.mpr ⟨s, h.mem, h.listed, rfl⟩)
    have hfigure := hf.congr figure
    obtain ⟨rfl, hscope⟩ := hfigure.manages own
    have hnamed := hd.named tended.tidy.sound tended.tidy.grounded.named
    exact ⟨who, loc, mirror, hd, hf.id, hfigure, plain.own hnamed hscope own⟩

/-- **An entry is made:** its agent is yet to be added. -/
theorem made {a : Agent} {t : Target} {entry : String} {path : Path} {files : FileSystem}
    (h : Turned e s mid e') (numbered : ∀ t ∈ e.slots, t.id.number < e.world.nextNumber)
    (tended : Tended home e) (figure : a.figure = s.agent.figure) (plain : t.Plain)
    (own : ownEntry e.project e.world.site a t = .ok (entry, path))
    (absent : e.world.site.files.exists? path = false)
    (made : EntryMade e.world.site.files t path files)
    (children : mid.agent.children = a.children.put entry ⟨⟨e.world.nextNumber⟩, targetKind t⟩)
    (pending : mid.phase.pending = [.adopt ⟨e.world.nextNumber⟩ (targetKind t) path])
    (site : e'.world.site = { e.world.site with files := files }) : Tended home e' := by
  obtain ⟨who, loc, mirror, hd, hid, hfigure, rfl, hname, rfl, hdoc⟩ :=
    h.stands tended figure plain own
  obtain ⟨htidy, hmanned, hfree⟩ := tidy_made tended.tidy hd plain hname hdoc absent made
  have hunused : ∀ l k', Manned e.project e.world.site home l k' →
      who l ≠ ⟨e.world.nextNumber⟩ := by
    intro l k' hl heq
    obtain ⟨t, ht, -, hwho, -⟩ := mirror.slot hl
    have hlt := numbered t ht
    rw [hwho, heq] at hlt
    exact Nat.lt_irrefl _ hlt
  have hmirror := fun now => (mirror.add hd hfree hunused now).of_iff hmanned
  refine ⟨by rw [h.project, site]; exact htidy, h.helperless tended.helpers, ?_⟩
  rw [h.project, site]
  refine .adopts (Function.update who (loc ++ [t.name]) ⟨e.world.nextNumber⟩) h.mem_after pending
    h.others fun now => ?_
  rw [h.project, h.id_eq, hid]
  refine (hmirror now).congr ?_
  rw [List.map_append, List.map_append, Roster.link, ← hid,
    h.figures (f := (·.put t.name ⟨⟨e.world.nextNumber⟩, targetKind t⟩)) figure children]

/-- **Who is let go** with the agent of an entry: those at its location and below it. -/
theorem gone {D : Location → Kind → Prop} {n : String} (h : Turned e s mid e')
    (distinct' : e'.ids.Nodup) (mirror : Mirror project home D who e.agents)
    (helpers : ∀ t ∈ e.slots, t.agent.helpers = []) (above : D loc .manager)
    (here : D (loc ++ [n]) k) (stands : s.id = who loc) (l : Location) (k' : Kind) (hl : D l k') :
    (e'.subtree e'.slots.length (who (loc ++ [n]))).contains (who l) = true ↔ loc ++ [n] <+: l := by
  have hin : home <+: loc ++ [n] := (mirror.inside _ _ above).trans (List.prefix_append _ _)
  have hlisted : ∀ l k', D l k' → loc ++ [n] <+: l → ∃ u, e'.listed? (who l) = some u ∧
      Figure project home D who l k' u.agent ∧ u.agent.helpers = [] := by
    intro l k' hl hp
    obtain ⟨u, hu, hulisted, huid, hf⟩ := mirror.slot hl
    have hother : u.id ≠ mid.id := by
      intro heq
      rw [h.id_eq, huid, stands] at heq
      rw [mirror.apart _ _ _ _ hl above heq] at hp
      exact Location.not_concat_prefix List.prefix_rfl hp
    have hu' : u ∈ e'.slots := by
      rw [h.slots]
      exact List.mem_map.mpr ⟨u, hu, if_neg hother⟩
    exact ⟨u, huid ▸ Engine.listed?_of_mem distinct' hu' hulisted, hf, helpers u hu⟩
  have hlength : e.agents.length ≤ e'.slots.length := by
    rw [h.slots, Engine.swap, List.length_map, Engine.agents, List.length_map]
    exact List.length_filter_le _ _
  rw [List.contains_iff_mem, mem_subtree_iff hlisted here
    (fun l more k' hl hp => mirror.up hl (hin.trans hp))
    fun l k' hl hp => (mirror.depth hl hin hp).trans_le (by omega)]
  constructor
  · rintro ⟨l', k'', hl', hp, heq⟩
    rwa [mirror.apart _ _ _ _ hl' hl heq] at hp
  · exact fun hp => ⟨l, k', hl, hp, rfl⟩

/-- What can be removed has an agent. -/
theorem linked {a : Agent} {t : Target} {entry : String} {path : Path} {files : FileSystem}
    (h : Turned e s mid e') (tended : Tended home e) (figure : a.figure = s.agent.figure)
    (plain : t.Plain) (own : ownEntry e.project e.world.site a t = .ok (entry, path))
    (present : e.world.site.files.exists? path = true)
    (removed : EntryRemoved e.world.site.files t path files) : a.children.get? entry ≠ none := by
  obtain ⟨who, loc, mirror, hd, hid, hfigure, rfl, hname, rfl, hdoc⟩ :=
    h.stands tended figure plain own
  obtain ⟨⟨k, hk⟩, -, -⟩ := tidy_removed tended.tidy hd plain hname hdoc present removed
  rw [(hfigure.get?_iff mirror.unique _ ⟨who (loc ++ [t.name]), k⟩).mpr ⟨hk, rfl⟩]
  simp

/-- **An entry is removed:** its agent is yet to be let go. -/
theorem removed {a : Agent} {t : Target} {entry : String} {path : Path} {files : FileSystem}
    {link : ChildLink} (h : Turned e s mid e') (distinct' : e'.ids.Nodup)
    (tended : Tended home e) (figure : a.figure = s.agent.figure) (plain : t.Plain)
    (own : ownEntry e.project e.world.site a t = .ok (entry, path))
    (present : e.world.site.files.exists? path = true)
    (removed : EntryRemoved e.world.site.files t path files)
    (child : a.children.get? entry = some link)
    (children : mid.agent.children = a.children.drop entry)
    (pending : mid.phase.pending = [.release link.id])
    (site : e'.world.site = { e.world.site with files := files }) : Tended home e' := by
  obtain ⟨who, loc, mirror, hd, hid, hfigure, rfl, hname, rfl, hdoc⟩ :=
    h.stands tended figure plain own
  obtain ⟨-, htidy, hmanned⟩ := tidy_removed tended.tidy hd plain hname hdoc present removed
  obtain ⟨hchild, hlink⟩ := (hfigure.get?_iff mirror.unique _ _).mp child
  have hgone := h.gone distinct' mirror tended.helpers hd hchild hid
  rw [← hlink] at hgone
  have hmirror := (mirror.prune hd hgone).of_iff hmanned
  refine ⟨by rw [h.project, site]; exact htidy, h.helperless tended.helpers, ?_⟩
  rw [h.project, site]
  refine .releases who h.mem_after pending h.others ?_
  rw [h.project]
  refine hmirror.congr ?_
  rw [Engine.figure_filter, Engine.figure_filter, ← hid,
    h.figures (f := (·.drop t.name)) figure children]

/-- **Nothing is made or removed:** the turn does not concern the tree. -/
theorem quiet (h : Turned e s mid e') (children : mid.agent.children = s.agent.children)
    (pending : mid.phase.pending = []) (site : e'.world.site = e.world.site) : Quiet e e' := by
  refine .of_swap h.distinct h.mem ?_ (pending.trans (h.idle s h.mem).symm) h.slots site h.project
  rw [Slot.stature, Slot.stature, Agent.figure, Agent.figure, h.nature, children, h.stays, h.helpers]

/-- What making an entry leaves. -/
theorem created {d : Desk} {t : Target} {out : Except AgentError Step × Desk}
    (h : Turned e s mid e') (numbered : ∀ t ∈ e.slots, t.id.number < e.world.nextNumber)
    (tended : Tended home e) (figure : d.agent.figure = s.agent.figure) (world : d.world = e.world)
    (plain : t.Plain) (fine : ∀ action name error, out.1 ≠ .error (.io action name (.os error)))
    (creation : Creation e.project t d out) (children : mid.agent.children = out.2.agent.children)
    (pending : mid.phase.pending = effectsOf out.1) (site : e'.world.site = out.2.world.site) :
    Tended home e' := by
  cases creation with
  | refused error =>
    refine tended.quiet (h.quiet (children.trans (congrArg Prod.snd figure)) pending ?_)
    rw [site, world]
  | noteless error own absent isFolder make => exact absurd rfl (fine _ _ error)
  | made note own absent free entryMade =>
    rw [world] at own absent entryMade
    simp only [world] at children pending site
    exact h.made numbered tended figure plain own absent entryMade children pending site

/-- What removing an entry leaves. -/
theorem deleted {d : Desk} {t : Target} {out : Except AgentError Step × Desk}
    (h : Turned e s mid e') (distinct' : e'.ids.Nodup)
    (tended : Tended home e) (figure : d.agent.figure = s.agent.figure) (world : d.world = e.world)
    (plain : t.Plain) (deletion : Deletion e.project t d out)
    (children : mid.agent.children = out.2.agent.children)
    (pending : mid.phase.pending = effectsOf out.1) (site : e'.world.site = out.2.world.site) :
    Tended home e' := by
  cases deletion with
  | refused error =>
    refine tended.quiet (h.quiet (children.trans (congrArg Prod.snd figure)) pending ?_)
    rw [site, world]
  | unlinked note own present type removed noChild =>
    rw [world] at own present removed
    exact absurd noChild (h.linked tended figure plain own present removed)
  | linked note own present type removed child idle =>
    rw [world] at own present removed
    simp only [world] at children pending site
    exact h.removed distinct' tended figure plain own present removed child children pending site

end Turned

/-- **A turn that makes or removes an entry.** -/
theorem Tended.completed {call : Call} {prompt response : String} {deadline : Option Nat}
    {done : List Effect × Desk} (o : Orderly e) (h : Tended home e) (hs : s ∈ e.slots)
    (tills : e.Tills s.id prompt response) (phase : s.phase = .calling call prompt deadline)
    (complete : Turn.complete e.project prompt response
      ⟨{ s.agent with failures := 0 }, e.world⟩ = done)
    (slots : e'.slots =
      (e.swap { s with agent := done.2.agent, phase := .applying done.1 false }).slots)
    (site : e'.world.site = done.2.world.site) (same : e'.project = e.project)
    (distinct' : e'.ids.Nodup) : Tended home e' := by
  obtain ⟨t, x, target, hlisted, hidle, hparse, htarget, plain, hfine⟩ := tills
  obtain ⟨ht, hid, hstands⟩ := Engine.mem_of_listed? hlisted
  obtain rfl := Engine.eq_of_id_eq o.distinct hs ht hid
  have hnature := complete_nature e.project prompt response ⟨{ t.agent with failures := 0 }, e.world⟩
  rw [complete] at hnature
  have hturned : done.2.agent.helpers = t.agent.helpers →
      Turned e t { t with agent := done.2.agent, phase := .applying done.1 false } e' :=
    fun hhelpers => ⟨o.distinct, hs, hstands, hidle, hnature, hhelpers, rfl, slots, same⟩
  rcases complete_cases e.project prompt response ⟨{ t.agent with failures := 0 }, e.world⟩ with
    ⟨queue, heq⟩ | ⟨x', out, queue, hparse', hout, heq⟩
  · obtain rfl := heq.symm.trans complete
    exact h.quiet ((hturned rfl).quiet rfl rfl site)
  · obtain rfl := Except.ok.inj (hparse.symm.trans hparse')
    have hcases := perform_target htarget e.project
      (recorded prompt response ⟨{ t.agent with failures := 0 }, e.world⟩)
    obtain rfl := heq.symm.trans complete
    rw [← hout] at hcases hfine
    rcases hcases with creation | deletion
    · have hhelpers : out.2.agent.helpers = t.agent.helpers := by cases creation <;> rfl
      exact (hturned hhelpers).created o.numbered h rfl rfl plain hfine creation rfl rfl site
    · have hhelpers : out.2.agent.helpers = t.agent.helpers := by cases deletion <;> rfl
      exact (hturned hhelpers).deleted distinct' h rfl rfl plain deletion rfl rfl site

/-! ### Any move -/

/-- What is left to do is to add an agent or to let one go. -/
theorem Upkeep.pending_cases (h : Upkeep home D e) (distinct : e.ids.Nodup) (hs : s ∈ e.slots) :
    s.phase.pending = [] ∨ (∃ id k path, s.phase.pending = [.adopt id k path]) ∨
      ∃ child, s.phase.pending = [.release child] := by
  by_cases busy : s.phase.pending = []
  · exact Or.inl busy
  · cases h with
    | done who idle mirror => exact Or.inl (idle s hs)
    | adopts who mem pending others mirror =>
      obtain rfl := eq_of_pending distinct hs mem others busy
      exact Or.inr (Or.inl ⟨_, _, _, pending⟩)
    | releases who mem pending others mirror =>
      obtain rfl := eq_of_pending distinct hs mem others busy
      exact Or.inr (Or.inr ⟨_, pending⟩)

/-- **The step of an agent keeps the agents as far as they are to be.** -/
theorem Tended.acted (o : Orderly e) (h : Tended home e) (tends : Tends e m) (hs : s ∈ e.slots)
    (acted : Acted e s (e.deed m s.id) e') (distinct' : e'.ids.Nodup) : Tended home e' := by
  have hpending := h.upkeep.pending_cases o.distinct hs
  have htills := tends.tills s.id
  obtain ⟨hfail, hreset⟩ := tends.goes s.id
  generalize e.deed m s.id = deed at acted htills hfail hreset
  obtain ⟨acts, slots, -, -, -, site, same, -⟩ := acted
  have id := acts.id_eq
  have quiet : ∀ {mid : Slot}, e'.slots = (e.swap mid).slots → mid.stature = s.stature →
      mid.phase.pending = s.phase.pending → e'.world.site = e.world.site → Tended home e' :=
    fun hslots hstature hidle hsite => h.quiet (.of_swap o.distinct hs hstature hidle hslots hsite same)
  generalize e'.world.nextNumber = n at acts
  cases acts with
  | passed passes => exact quiet slots rfl passes.pending site
  | @heard envelope rest phase inbox =>
    refine quiet slots ?_ rfl site
    have hhelpers : (s.agent.receive envelope e.world.now).helpers = [] := by
      refine List.eq_nil_iff_forall_not_mem.mpr fun c hc => ?_
      have hbooks : (s.agent.receive envelope e.world.now).helpers =
          (s.agent.books.receive envelope).helpers :=
        congrArg Books.helpers (s.agent.books_receive envelope e.world.now)
      have hmem := (Books.helpers_receive envelope).1 (hbooks ▸ hc)
      rw [show s.agent.books.helpers = [] from h.helpers s hs] at hmem
      cases hmem
    rw [Slot.stature, Slot.stature, hhelpers, h.helpers s hs]
    simp only [s.agent.receive_figure envelope e.world.now]
  | @began request a call deadline phase begun =>
    obtain ⟨-, -, rfl⟩ := begin_eq_some begun
    exact quiet slots rfl (by rw [phase]; rfl) site
  | completed phase complete =>
    exact h.completed o hs (htills _ _ rfl) phase complete slots (complete ▸ site) same distinct'
  | retried turn few => exact absurd rfl (hfail _)
  | despaired turn many gives => exact absurd rfl (hfail _)
  | revived phase text now => exact absurd rfl hreset
  | abandoned phase gives => exact absurd rfl hreset
  | missed phase gone => simp [phase] at hpending
  | handed phase accepts => simp [phase] at hpending
  | started phase => simp [phase] at hpending
  | adopted phase =>
    refine ⟨by rw [same, site]; exact h.tidy, fun t ht => ?_, ?_⟩
    · rw [slots] at ht
      rcases List.mem_append.mp ht with ht | ht
      · rcases mem_swap id ht with rfl | ⟨ht, -⟩
        · exact h.helpers s hs
        · exact h.helpers t ht
      · rw [List.mem_singleton.mp ht]
        rfl
    · rw [same, site]
      exact h.upkeep.adopted o.distinct hs (by rw [phase]; rfl) slots same
  | released phase subtree =>
    subst subtree
    refine ⟨by rw [same, site]; exact h.tidy, fun t ht => ?_, ?_⟩
    · rw [slots] at ht
      obtain ⟨u, hu, rfl⟩ := List.mem_map.mp ht
      have hnone : u.agent.helpers = [] := by
        rcases mem_swap id hu with rfl | ⟨hu, -⟩
        · exact h.helpers s hs
        · exact h.helpers u hu
      split <;> exact hnone
    · rw [same, site]
      exact h.upkeep.released o.distinct hs (by rw [phase]; rfl) slots same
  | reported phase => simp [Slot.pending_of_ending phase] at hpending

/-- **Any move keeps the agents as far as they are to be.** -/
theorem Tended.step (o : Orderly e) (h : Tended home e) (tends : Tends e m) :
    Tended home (e.step m) := by
  cases hactor : m.actor? with
  | none => exact h.quiet (tends.quiet hactor)
  | some id =>
    rcases step_of_actor o.distinct hactor with ⟨hsame, -⟩ | ⟨s, hs, -, hacted⟩
    · rwa [hsame]
    · exact h.acted o tends hs hacted (o.step m).distinct

end Arbor
