import Arbor.Proofs.Roster

/-! # Delegated work and the list of those at work

An agent ends its task, and lets go of a child, only while the child is not on its list of those at
work. That is safe in *tracked* states: every child that works for its parent is on the list. The
list has one place for each child, whatever the number of tasks, so the report on one task strikes
the child off although it works on another. A report *crosses* a task in this way; so does the news
that a child is gone, for an agent whose children were released with it.

* `tracked_iff_uncrossed`: all states of a run are tracked exactly if no move of it crosses, and then
  nobody ends its task or lets go of a child that works for it. -/

namespace Arbor

open Turn

namespace Engine

/-- Every child that works for its parent is on the parent's list. -/
def Tracked (e : Engine) : Prop :=
  ∀ p ∈ e.slots, ∀ c ∈ e.slots, p.Heads c.id → c.WorksFor p.id → c.id ∈ p.handedTo

instance (e : Engine) : Decidable e.Tracked :=
  inferInstanceAs (Decidable (∀ p ∈ e.slots, ∀ c ∈ e.slots, p.Heads c.id → c.WorksFor p.id →
    c.id ∈ p.handedTo))

/-- From the first engine to the second no agent that a child works for has ended its task or let go
of the child. -/
def HoldsOn (e e' : Engine) : Prop :=
  ∀ p ∈ e.slots, ∀ c ∈ e.slots, ∀ entry link, p.agent.children.get? entry = some link →
    link.id = c.id → c.WorksFor p.id →
    ∃ p' ∈ e'.slots, p'.id = p.id ∧ p'.agent.children.get? entry = some link ∧
      (p.agent.isActive = true → p'.agent.task = p.agent.task)

instance (e e' : Engine) : Decidable (e.HoldsOn e') :=
  decidable_of_iff (∀ p ∈ e.slots, ∀ c ∈ e.slots, ∀ x ∈ p.agent.children,
    p.agent.children.get? x.1 = some x.2 → x.2.id = c.id → c.WorksFor p.id →
    ∃ p' ∈ e'.slots, p'.id = p.id ∧ p'.agent.children.get? x.1 = some x.2 ∧
      (p.agent.isActive = true → p'.agent.task = p.agent.task))
    ⟨fun h p hp c hc _ _ hget => h p hp c hc _ (Table.mem_of_get? hget) hget,
      fun h p hp c hc x _ => h p hp c hc x.1 x.2⟩

end Engine

/-- The move strikes a child off the list of its parent, and the child works for it. -/
inductive Crosses (e : Engine) (m : Move) : Prop where
  /-- The parent takes in a report of the child. -/
  | report {p c : Slot} {r : Report} {rest : List Envelope} (parent : p ∈ e.slots)
      (child : c ∈ e.slots) (heads : p.Heads c.id) (works : c.WorksFor p.id)
      (move : m = .advance p.id) (phase : p.phase = .delivering)
      (lasting : p.agent.kind.isHelper = false) (inbox : p.inbox = .report r :: rest)
      (sender : r.sender = c.id)
  /-- The parent hears that the child is gone. -/
  | gone {p c : Slot} {task : Task} {rest : List Effect} {retiring : Bool} (parent : p ∈ e.slots)
      (child : c ∈ e.slots) (heads : p.Heads c.id) (works : c.WorksFor p.id)
      (move : m = .advance p.id)
      (phase : p.phase = .applying (.delegate c.id task :: rest) retiring)
      (gone : e.accepts c.id = false)

variable {e e' : Engine} {m : Move}

/-! ### A move that does not cross -/

/-- Whoever is on the list stays there, unless it reports or is gone. -/
theorem Shift.handedTo {s s' : Slot} {c : AgentId} (h : Shift e m e' s s') (hc : c ∈ s.handedTo) :
    c ∈ s'.handedTo ∨
    (m = .advance s.id ∧ s.phase = .delivering ∧ s.agent.kind.isHelper = false ∧
      ∃ r rest, s.inbox = .report r :: rest ∧ r.sender = c) ∨
    (m = .advance s.id ∧ e.accepts c = false ∧
      ∃ task rest retiring, s.phase = .applying (.delegate c task :: rest) retiring) := by
  cases h with
  | calm calm =>
    rw [Slot.handedTo, calm.books]
    exact Or.inl hc
  | @received envelope rest move phase inbox =>
    rw [Slot.handedTo, Agent.books_receive]
    rcases Books.handedTo_receive envelope hc with hc | ⟨hk, r, rfl, hr⟩
    · exact Or.inl hc
    · exact Or.inr (Or.inl ⟨move, phase, hk, r, rest, inbox, hr⟩)
  | turned actor idle going listed inbox booked => exact Or.inl (booked.handedTo hc)
  | @bounced child task rest retiring move phase gone =>
    by_cases hcc : c = child
    · subst hcc
      exact Or.inr (Or.inr ⟨move, gone, task, rest, retiring, phase⟩)
    · exact Or.inl ((Books.mem_handedTo_dismiss (b := s.agent.books)).mpr ⟨hc, hcc⟩)

variable {g : Slot → Slot} {new : List Slot}

/-- Children that had slots before are tracked as long as nothing crosses. -/
theorem Evolution.tracked_old (w : Evolution e m e' g new) (o : Orderly e) (h : e.Tracked)
    (free : ¬ Crosses e m) {p c : Slot} (hp : p ∈ e.slots) (hc : c ∈ e.slots)
    (hheads : p.Heads c.id) (hworks : (g c).WorksFor p.id) : c.id ∈ (g p).handedTo := by
  rcases (w.shift c hc).worksFor hworks with hw | ⟨task, ⟨q, hq, hqid, rest, hpending⟩, hopen⟩
  · rcases (w.shift p hp).handedTo (h p hp c hc hheads hw) with hin |
      ⟨move, phase, lasting, r, rest, inbox, sender⟩ | ⟨move, gone, task, rest, retiring, phase⟩
    · exact hin
    · exact absurd (.report hp hc hheads hw move phase lasting inbox sender) free
    · exact absurd (.gone hp hc hheads hw move phase gone) free
  · -- The task is just being handed over, so the child is on the list and not gone.
    obtain rfl := Engine.eq_of_id_eq o.distinct hp hq hqid
    have hlist : c.id ∈ q.handedTo := by
      have hm : .delegate c.id task ∈ q.phase.pending := by
        rw [hpending]
        exact List.mem_cons_self
      exact (o.handing q hq c.id task hm).2.resolve_right fun hclosed => hopen (hclosed c hc rfl)
    rcases (w.shift q hq).handedTo hlist with hin | ⟨-, phase, -⟩ | ⟨-, gone, -⟩
    · exact hin
    · rw [phase] at hpending
      cases hpending
    · exact absurd (Engine.closed_of_not_accepts hc o.distinct gone) hopen

/-- An agent that is added is no child that works for its parent. -/
theorem Evolution.tracked_new (w : Evolution e m e' g new) (o : Orderly e) {p c : Slot}
    (hp : p ∈ e.slots) (hc : c ∈ new) (hheads : (g p).Heads c.id)
    (hworks : c.WorksFor p.id) : False := by
  cases (w.join c hc).2 with
  | @started s effect rest mem pending newcomer after idle childless free inbox =>
    rcases hworks with ⟨ha, -⟩ | ⟨task, ht⟩
    · rw [Agent.isActive, free] at ha
      cases ha
    · obtain ⟨hid, kind, prompt, scratch, rfl⟩ := inbox _ task ht
      obtain rfl := Engine.eq_of_id_eq o.distinct mem hp hid
      rcases (w.shift p hp).heads hheads with hold | hnew
      · refine o.helpers p hp c.id kind prompt scratch ?_ hold
        rw [pending]
        exact List.mem_cons_self
      · exact w.new_not_mem_newcomers o hc hp hnew
  | crowned number taken still idle children free inbox =>
    rcases hworks with ⟨ha, -⟩ | ⟨task, ht⟩
    · rw [Agent.isActive, free] at ha
      cases ha
    · rw [inbox] at ht
      cases ht

/-- Nobody works for an agent that is added. -/
theorem Evolution.tracked_crowned (w : Evolution e m e' g new) (o : Orderly e) {p c : Slot}
    (hp : p ∈ new) (hc : c ∈ e'.slots) (hheads : p.Heads c.id) (hworks : c.WorksFor p.id) :
    False := by
  cases (w.join p hp).2 with
  | started mem pending newcomer after idle childless free inbox =>
    obtain ⟨entry, link, hget, -⟩ := hheads
    rw [childless] at hget
    cases hget
  | crowned number taken still idle children free inbox =>
    rcases w.mem_cases hc with ⟨t, ht, rfl⟩ | hc
    · have hlt : p.id.number < e.world.nextNumber := by
        rcases (w.shift t ht).worksFor hworks with hw | ⟨task, ⟨q, hq, hqid, -⟩, -⟩
        · exact o.employers t ht _ hw
        · rw [← hqid]
          exact o.numbered q hq
      rw [number] at hlt
      exact Nat.lt_irrefl _ hlt
    · exact w.new_not_mem_ids o hc (children _ hheads)

/-- **A move that does not cross keeps work tracked.** -/
theorem Engine.Tracked.step (h : e.Tracked) (o : Orderly e) (free : ¬ Crosses e m) :
    (e.step m).Tracked := by
  obtain ⟨g, new, w⟩ := step_evolves o.distinct m
  intro p' hp' c' hc' hheads hworks
  rcases w.mem_cases hp' with ⟨p, hp, rfl⟩ | hp
  · rw [(w.shift p hp).id_eq] at hworks
    rcases w.mem_cases hc' with ⟨c, hc, rfl⟩ | hc
    · rw [(w.shift c hc).id_eq] at hheads ⊢
      refine w.tracked_old o h free hp hc ?_ hworks
      refine ((w.shift p hp).heads hheads).resolve_right fun hnew => ?_
      exact w.keeps_absent o (g p) hp' c.id hnew (w.mem_ids (List.mem_map_of_mem hc))
    · exact (w.tracked_new o hp hc hheads hworks).elim
  · exact (w.tracked_crowned o hp hc' hheads hworks).elim

/-! ### A move that crosses -/

/-- A child that works for its parent is struck off, and nothing else is changed of either. -/
theorem not_tracked_of_struck {f : Slot → Slot} {p c : Slot} (distinct : e.ids.Nodup)
    (hp : p ∈ e.slots) (hc : c ∈ e.slots) (works : c.WorksFor p.id)
    (slots : e'.slots = (e.modifySlot p.id f).slots) (id : (f p).id = p.id)
    (heads : (f p).Heads c.id) (still : p.WorksFor p.id → (f p).WorksFor p.id)
    (struck : c.id ∉ (f p).handedTo) : ¬ e'.Tracked := by
  intro h
  have hp' : f p ∈ e'.slots := by
    rw [slots]
    exact List.mem_map.mpr ⟨p, hp, if_pos rfl⟩
  -- nothing rules out that an agent is listed as its own child
  by_cases hid : c.id = p.id
  · obtain rfl := Engine.eq_of_id_eq distinct hp hc hid
    rw [← id] at heads struck
    refine struck (h _ hp' _ hp' heads ?_)
    rw [id]
    exact still works
  · have hc' : c ∈ e'.slots := by
      rw [slots]
      exact List.mem_map.mpr ⟨c, hc, if_neg hid⟩
    refine struck (h _ hp' _ hc' heads ?_)
    rw [id]
    exact works

/-- **A move that crosses leaves work untracked.** -/
theorem not_tracked_of_crosses (o : Orderly e) (h : e.Tracked) (crosses : Crosses e m) :
    ¬ (e.step m).Tracked := by
  cases crosses with
  | @report p c r rest parent child heads works move phase lasting inbox sender =>
    have hlist := h p parent c child heads works
    have hstep : (e.step m).slots = (e.modifySlot p.id fun t => { t with
        agent := t.agent.receive (.report r) e.world.now, inbox := rest }).slots := by
      rw [move, Engine.step_advance o.distinct parent, Engine.stepSlot?, phase, inbox]
      rfl
    have hbooks : (p.agent.receive (.report r) e.world.now).books =
        p.agent.books.dismiss c.id := by
      rw [Agent.books_receive, Books.receive, if_neg, if_pos, sender]
      · rw [sender]
        exact hlist
      · rw [show p.agent.books.kind.isHelper = false from lasting]
        simp
    refine not_tracked_of_struck o.distinct parent child works hstep
      (congrArg Books.id hbooks) ?_ ?_ ?_
    · rw [Slot.Heads, show (p.agent.receive (.report r) e.world.now).children = p.agent.children
        from congrArg Books.children hbooks]
      exact heads
    · rintro (⟨ha, ho⟩ | ⟨task, ht⟩)
      · refine Or.inl ⟨?_, (congrArg Books.origin hbooks).trans ho⟩
        exact (congrArg (fun b => b.task.isSome) hbooks).trans ha
      · rw [inbox] at ht
        rcases List.mem_cons.mp ht with ht | ht
        · cases ht
        · exact Or.inr ⟨task, ht⟩
    · rw [Slot.handedTo, hbooks]
      exact fun hm => (Books.mem_handedTo_dismiss.mp hm).2 rfl
  | @gone p c task rest retiring parent child heads works move phase gone =>
    have hgoing : p.phase ≠ .stopped := by
      rw [phase]
      simp
    have hstep : (e.step m).slots =
        (e.modifySlot p.id fun t => t.bereft c.id rest retiring).slots := by
      rw [move, Engine.step_advance o.distinct parent, Engine.stepSlot?, phase]
      exact slots_handOver_gone o.distinct parent hgoing gone
    refine not_tracked_of_struck o.distinct parent child works hstep rfl heads id ?_
    exact fun hm => ((Books.mem_handedTo_dismiss (b := p.agent.books)).mp hm).2 rfl

/-! ### Runs -/

/-- **In a tracked state no move** ends the task of an agent or lets go of its child while the child
works for it. -/
theorem Engine.Tracked.holdsOn (h : e.Tracked) (o : Orderly e) (m : Move) :
    e.HoldsOn (e.step m) := by
  obtain ⟨g, new, w⟩ := step_evolves o.distinct m
  intro p hp c hc entry link hget hid hworks
  have hheads : p.Heads c.id := ⟨entry, link, hget, hid⟩
  have hlist : link.id ∈ p.agent.books.handedTo := by
    rw [hid]
    exact h p hp c hc hheads hworks
  have hmem : g p ∈ (e.step m).slots := by
    rw [w.slots]
    exact List.mem_append_left _ (List.mem_map_of_mem hp)
  refine ⟨g p, hmem, (w.shift p hp).id_eq, ?_⟩
  have hshift := w.shift p hp
  generalize g p = p' at hshift
  cases hshift with
  | calm calm =>
    have hchildren : p'.agent.children = p.agent.children := congrArg Books.children calm.books
    rw [hchildren]
    exact ⟨hget, fun _ => congrArg Books.task calm.books⟩
  | @received envelope rest move phase inbox =>
    have hbooks := p.agent.books_receive envelope e.world.now
    rw [p.agent.receive_children]
    refine ⟨hget, fun hactive => ?_⟩
    rcases p.agent.books.receive_task envelope with ⟨htask, -⟩ | ⟨hnone, -⟩
    · exact (congrArg Books.task hbooks).trans htask
    · rw [Agent.isActive, show p.agent.task = none from hnone] at hactive
      cases hactive
  | turned actor idle going listed inbox booked =>
    obtain ⟨hget', htask⟩ := booked.kept hget hlist
    exact ⟨hget', fun _ => htask⟩
  | bounced move phase gone => exact ⟨hget, fun _ => rfl⟩

/-- No move of a run crosses. -/
def Uncrossed (e : Engine) (moves : List Move) : Prop :=
  ∀ ran m, ran ++ [m] <+: moves → ¬ Crosses (e.follow ran) m

/-- **A run without crossings keeps work tracked.** -/
theorem Engine.Tracked.follow (h : e.Tracked) (o : Orderly e) {moves : List Move}
    (free : Uncrossed e moves) {ran : List Move} (hran : ran <+: moves) :
    (e.follow ran).Tracked := by
  -- whether a move crosses depends on the run before it, so the run grows at its end
  induction ran using List.reverseRecOn with
  | nil => exact h
  | append_singleton ran m ih =>
    rw [Engine.follow_concat]
    refine (ih ((List.prefix_append ran [m]).trans hran)).step (o.follow ran) (free ran m hran)

/-- **The states of a run are tracked exactly if no move of it crosses.** Then no move ends the task
of an agent, or lets go of its child, while the child works for it. -/
theorem tracked_iff_uncrossed (launched : Launched e) (moves : List Move) :
    ((∀ ran, ran <+: moves → (e.follow ran).Tracked) ↔ Uncrossed e moves) ∧
      (Uncrossed e moves → ∀ ran m, ran ++ [m] <+: moves →
        (e.follow ran).HoldsOn (e.follow (ran ++ [m]))) := by
  have o := launched.orderly
  have h : e.Tracked := fun p _ c hc _ hworks => absurd hworks (launched.not_worksFor hc p.id)
  refine ⟨⟨?_, ?_⟩, ?_⟩
  · intro tracked ran m hran crosses
    have hbefore := tracked ran ((List.prefix_append ran [m]).trans hran)
    refine not_tracked_of_crosses (o.follow ran) hbefore crosses ?_
    rw [← Engine.follow_concat]
    exact tracked _ hran
  · intro free ran hran
    exact h.follow o free hran
  · intro free ran m hran
    rw [Engine.follow_concat]
    exact (h.follow o free ((List.prefix_append ran [m]).trans hran)).holdsOn (o.follow ran) m

/-! ### A run that crosses -/

/-- The manager is given a task and hands its coder two, the second while the coder is at the first.
The report on the first is taken in before the coder takes in the second. -/
def shedRun : List Move :=
  [Move.enterRun ⟨0⟩ "go", .admitRun 0, .registerRun 0, .dispatchRun 0] ++
  List.replicate 4 (Move.advance ⟨0⟩) ++
  [Move.answer ⟨0⟩ (.ok "DELEGATE FILE \"a\" PROMPT=\"one\" FILE \"a\" PROMPT=\"two\""),
    .advance ⟨0⟩] ++
  List.replicate 4 (Move.advance ⟨1⟩) ++
  [Move.advance ⟨0⟩, .answer ⟨1⟩ (.ok "FINISH PROMPT=\"did one\""), .advance ⟨1⟩] ++
  List.replicate 4 (Move.advance ⟨0⟩)

/-- The run crosses: after it the coder works for its manager and is not on the list. -/
theorem tracked_iff_uncrossed_shed : Launched shedStart ∧ ¬ Uncrossed shedStart shedRun := by
  have launched : Launched shedStart := .intro shed_build rfl
  refine ⟨launched, fun free => ?_⟩
  have htracked := (tracked_iff_uncrossed launched shedRun).1.mpr free
  exact absurd (htracked shedRun List.prefix_rfl) (by decide +kernel)

/-- Behind the crossing the manager ends its task, and the coder still works for it. -/
theorem shed_finish_too_early :
    ¬ (shedStart.follow shedRun).Tracked ∧
      ¬ (shedStart.follow shedRun).HoldsOn
        ((shedStart.follow shedRun).step (.answer ⟨0⟩ (.ok "FINISH PROMPT=\"done\""))) := by
  constructor <;> decide +kernel

end Arbor
