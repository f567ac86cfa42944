import Arbor.Proofs.Roster
import Arbor.Proofs.Turn.Queue

/-! # Turns in flight

A turn is in flight from its beginning until it is completed, fails or is dropped by the watchdog.
An agent marks this in its state, and waits for an envelope only with nothing left on its queue.

* `Slot.Steady`: what the phase of an agent says about the mark and the queue.
* `Slot.Steady.fares`: every move keeps this, as long as the engine is not shut down.
* `stalled_iff_inFlight`: along every run the mark is set exactly while a turn is in flight, no turn
  begins in another one, and no prompt is left on the queue of an agent that waits. -/

namespace Arbor

open Turn

/-! ### The mark of a turn -/

/-- Whether a turn is in flight behind the deed, if the deed begins or ends one. -/
def Deed.flight? : Deed → Option Bool
  | .begin _ => some true
  | .complete _ _ => some false
  | .fail _ => some false
  | .reset => some false
  | _ => none

/-- A turn was begun and has not ended since. -/
def InFlight (deeds : List Deed) : Prop :=
  ∃ before deed since, deeds = before ++ deed :: since ∧ deed.flight? = some true ∧
    ∀ later ∈ since, later.flight? ≠ some false

theorem not_inFlight_of_idle {deeds : List Deed} (idle : ∀ deed ∈ deeds, deed = .other) :
    ¬ InFlight deeds := by
  rintro ⟨before, deed, since, rfl, hbegin, -⟩
  rw [idle deed (by simp)] at hbegin
  cases hbegin

/-- The last deed that concerns turns decides. -/
theorem inFlight_concat (deeds : List Deed) (deed : Deed) :
    InFlight (deeds ++ [deed]) ↔
      deed.flight? = some true ∨ (deed.flight? = none ∧ InFlight deeds) := by
  constructor
  · rintro ⟨before, first, since, heq, hbegin, hgoing⟩
    -- the turn is begun by the last deed, or before it
    rcases List.eq_nil_or_concat since with rfl | ⟨since, last, rfl⟩
    · obtain ⟨-, hlast⟩ := List.append_inj' heq rfl
      rw [(List.cons.inj hlast).1]
      exact Or.inl hbegin
    · have hsplit : deeds ++ [deed] = (before ++ first :: since) ++ [last] := by
        rw [heq, List.concat_eq_append]
        simp
      obtain ⟨rfl, hlast⟩ := List.append_inj' hsplit rfl
      obtain rfl := (List.cons.inj hlast).1
      cases hd : deed.flight? with
      | none =>
        refine Or.inr ⟨rfl, before, first, since, rfl, hbegin, fun later hl => hgoing later ?_⟩
        simp [hl]
      | some going =>
        cases going with
        | true => exact Or.inl rfl
        | false => exact absurd hd (hgoing deed (by simp))
  · rintro (hbegin | ⟨hnone, before, first, since, rfl, hbegin, hgoing⟩)
    · exact ⟨deeds, deed, [], rfl, hbegin, by simp⟩
    · refine ⟨before, first, since ++ [deed], by simp, hbegin, ?_⟩
      intro later hl
      rcases List.mem_append.mp hl with hl | hl
      · exact hgoing later hl
      · rw [List.mem_singleton.mp hl, hnone]
        simp

variable {e : Engine} {m : Move} {s s' : Slot}

theorem GivesUp.stalled {a a' : Agent} {phase : Phase} (h : GivesUp a a' phase) :
    a'.stalled = a.stalled := by
  cases h <;> rfl

/-- **A deed sets the mark as it begins or ends a turn.** -/
theorem Acts.stalled {deed : Deed} {errand : Errand} {n : Nat} (h : Acts e s deed s' errand n) :
    s'.agent.stalled = deed.flight?.getD s.agent.stalled := by
  cases h with
  | @heard envelope rest phase inbox => exact (s.agent.receive_talk envelope e.world.now).2
  | began phase begun =>
    obtain ⟨-, -, rfl⟩ := begin_eq_some begun
    rfl
  | @completed call prompt response deadline done phase complete =>
    obtain rfl := complete
    exact complete_stalled e.project prompt response _
  | despaired turn many gives => exact gives.stalled
  | abandoned phase gives => exact gives.stalled
  | _ => rfl

/-! ### Phases -/

/-- **What the phase of an agent says** about the mark of a turn and about the queue. Whoever waits
has nothing on its queue. A report is the last effect and leaves nothing there. -/
def Slot.Steady (s : Slot) : Prop :=
  match s.phase with
  | .waiting | .stopped => s.agent.stalled = false ∧ s.agent.queue = []
  | .delivering | .ready => s.agent.stalled = false
  | .calling _ _ _ => s.agent.stalled = true
  | .applying effects retiring => s.agent.stalled = false ∧
    (∀ ending, .finish ending ∈ effects → effects = [.finish ending] ∧ s.agent.queue = []) ∧
    (retiring = true → effects = [] ∧ s.agent.queue = [])
  | .refreshing _ _ _ rest _ => s.agent.stalled = false ∧ rest = [] ∧ s.agent.queue = []

namespace Slot.Steady

theorem keeps (h : s.Steady) (keeps : s.Keeps s') : s'.Steady := by
  obtain ⟨parent, ha⟩ := keeps.agent
  unfold Slot.Steady at h ⊢
  rw [keeps.phase, ha]
  exact h

theorem newborn (h : s.IsNewborn) : s.Steady := by
  unfold Slot.Steady
  rw [h.phase]
  exact ⟨h.unused.stalled, h.unused.queue⟩

/-- An effect in front of others is no report, and its agent is not retiring. -/
theorem applied {effect : Effect} {rest : List Effect} {retiring : Bool} (h : s.Steady)
    (phase : s.phase = .applying (effect :: rest) retiring) :
    s.agent.stalled = false ∧ retiring = false ∧ ∀ ending, .finish ending ∉ rest := by
  unfold Slot.Steady at h
  rw [phase] at h
  obtain ⟨hstalled, hending, hretiring⟩ := h
  refine ⟨hstalled, ?_, fun ending hm => ?_⟩
  · cases retiring with
    | false => rfl
    | true => cases (hretiring rfl).1
  · obtain ⟨heq, -⟩ := hending ending (List.mem_cons_of_mem _ hm)
    rw [(List.cons.inj heq).2] at hm
    cases hm

/-- So the effect can be struck off. -/
theorem strike {effect : Effect} {rest : List Effect} {retiring : Bool} (h : s.Steady)
    (phase : s.phase = .applying (effect :: rest) retiring) (a : Agent)
    (stalled : a.stalled = s.agent.stalled) :
    Slot.Steady { s with agent := a, phase := .applying rest retiring } := by
  obtain ⟨hstalled, rfl, hnone⟩ := h.applied phase
  exact ⟨stalled.trans hstalled, fun ending hm => absurd hm (hnone ending), by simp⟩

/-- Going on to another phase. -/
theorem passes {phase : Phase} (h : s.Steady) (going : e.closed = false)
    (passes : Passes e s phase) : Slot.Steady { s with phase := phase } := by
  unfold Slot.Steady at h
  cases passes with
  | stops phase done =>
    rw [phase] at h
    exact h
  | wakes phase mail =>
    rw [phase] at h
    exact h.1
  | rests phase inbox queue =>
    rw [phase] at h
    exact ⟨h, queue⟩
  | readies phase inbox queue =>
    rw [phase] at h
    exact h
  | idles phase queue =>
    rw [phase] at h
    exact ⟨h, queue⟩
  | cut phase closed =>
    rw [going] at closed
    cases closed
  | postponed phase =>
    rw [phase] at h
    exact h
  | leaves phase =>
    rw [phase] at h
    exact ⟨h.1, (h.2.2 rfl).2⟩
  | resumes phase =>
    rw [phase] at h
    exact h.1
  | @refreshes ending rest retiring call doc phase =>
    rw [phase] at h
    obtain ⟨heq, hqueue⟩ := h.2.1 ending List.mem_cons_self
    exact ⟨h.1, (List.cons.inj heq).2, hqueue⟩

/-- Giving up leaves nothing on the queue. -/
theorem gives {a a' : Agent} {phase : Phase} (stalled : a.stalled = false) (queue : a.queue = [])
    (gives : GivesUp a a' phase) : Slot.Steady { s with agent := a', phase := phase } := by
  cases gives with
  | stuck busy => exact ⟨stalled, queue⟩
  | ended idle payload =>
    refine ⟨stalled, fun ending hm => ?_, by simp⟩
    rw [List.mem_singleton.mp hm]
    exact ⟨rfl, rfl⟩

/-- **An agent's own step.** -/
theorem acts {deed : Deed} {errand : Errand} {n : Nat} (h : s.Steady) (going : e.closed = false)
    (acts : Acts e s deed s' errand n) : s'.Steady := by
  have hmark := acts.stalled
  cases acts with
  | passed passes => exact h.passes going passes
  | @heard envelope rest phase inbox =>
    unfold Slot.Steady at h ⊢
    simp only [phase] at h ⊢
    exact hmark.trans h
  | began phase begun => exact hmark
  | @completed call prompt response deadline done phase complete =>
    refine ⟨hmark, fun ending hm => ⟨((booked_of_completed complete).finish hm).1, ?_⟩, by simp⟩
    obtain rfl := complete
    rcases complete_talk e.project prompt response
      ⟨{ s.agent with failures := 0 }, e.world⟩ with ⟨hnone, -⟩ | ⟨-, htalk⟩
    · have hfinish := List.any_eq_false.mp hnone _ hm
      simp [Effect.isFinish] at hfinish
    · exact congrArg Prod.fst htalk
  | retried turn few => exact hmark
  | despaired turn many gives => exact .gives rfl rfl gives
  | revived phase text now => exact hmark
  | abandoned phase gives => exact .gives rfl rfl gives
  | missed phase gone => exact h.strike phase _ rfl
  | handed phase accepts => exact h.strike phase _ rfl
  | started phase => exact h.strike phase _ rfl
  | adopted phase => exact h.strike phase _ rfl
  | released phase subtree => exact h.strike phase _ rfl
  | @reported ending rest retiring phase =>
    -- the report was the last effect, so nothing is left
    have hlast : s.agent.stalled = false ∧ rest = [] ∧ s.agent.queue = [] := by
      unfold Slot.Steady at h
      rcases phase with phase | ⟨call, doc, phase⟩
      · rw [phase] at h
        obtain ⟨heq, hqueue⟩ := h.2.1 ending List.mem_cons_self
        exact ⟨h.1, (List.cons.inj heq).2, hqueue⟩
      · rw [phase] at h
        exact h
    obtain ⟨hstalled, rfl, hqueue⟩ := hlast
    exact ⟨hstalled, by simp, fun _ => ⟨rfl, hqueue⟩⟩

/-- **Every move keeps a slot steady,** as long as the engine is not shut down. -/
theorem fares (h : s.Steady) (going : e.closed = false) (fares : s.Fares e m s') : s'.Steady := by
  cases fares with
  | idle deed keeps => exact h.keeps keeps
  | acts acts keeps => exact (h.acts going acts).keeps keeps

end Slot.Steady

/-! ### Runs -/

/-- Only a shutdown closes an engine. -/
theorem Change.closed {e' : Engine} (h : Change e m e') (running : m ≠ .shutdown) :
    e'.closed = e.closed := by
  cases h with
  | still slots idle number closed => exact closed.resolve_left running
  | posted outside slots number closed source => exact closed
  | crowned outside present number closed slots => exact closed
  | acted mem actor acted =>
    obtain ⟨-, -, -, closed⟩ := acted
    exact closed

theorem Orderly.closed_follow (o : Orderly e) {moves : List Move} (running : .shutdown ∉ moves) :
    (e.follow moves).closed = e.closed := by
  induction moves generalizing e with
  | nil => rfl
  | cons m rest ih =>
    obtain ⟨hm, hrest⟩ := not_or.mp (mt List.mem_cons.mpr running)
    exact (ih (o.step m) hrest).trans ((step_change o.distinct m).closed (Ne.symm hm))

theorem Launched.closed (h : Launched e) : e.closed = false := by
  cases h
  rfl

/-- Along every run slots are steady, and marked exactly while a turn is in flight. -/
theorem Launched.steady (launched : Launched e) {moves : List Move}
    (running : .shutdown ∉ moves) (hs : s ∈ (e.follow moves).slots) :
    s.Steady ∧ (s.agent.stalled = true ↔ InFlight (e.trace (fun e m => e.deed m s.id) moves)) := by
  have o := launched.orderly
  refine launched.slots_follow (P := fun ran s => .shutdown ∉ ran → s.Steady ∧
    (s.agent.stalled = true ↔ InFlight (e.trace (fun e m => e.deed m s.id) ran)))
    ?new ?step moves s hs running
  case new =>
    intro ran s idle newborn _
    exact ⟨.newborn newborn, by simp [newborn.unused.stalled, not_inFlight_of_idle idle]⟩
  case step =>
    intro ran m s hs s' fares ih hrun
    have hran : Move.shutdown ∉ ran := fun h => hrun (List.mem_append_left _ h)
    obtain ⟨hsteady, hflight⟩ := ih hran
    have hgoing := (o.closed_follow hran).trans launched.closed
    refine ⟨hsteady.fares hgoing fares, ?_⟩
    rw [fares.id_eq, Engine.trace_concat, inFlight_concat]
    cases fares with
    | idle deed keeps =>
      obtain ⟨parent, ha⟩ := keeps.agent
      rw [deed, ha]
      simp [Deed.flight?, hflight]
    | acts acts keeps =>
      obtain ⟨parent, ha⟩ := keeps.agent
      rw [ha]
      simp only [acts.stalled]
      cases ((e.follow ran).deed m s.id).flight? with
      | none => simp [hflight]
      | some going => simp

/-- Whoever has prompts on its queue has a step to take or a call open. -/
theorem Slot.Steady.served (h : s.Steady) (distinct : e.ids.Nodup) (hs : s ∈ e.slots)
    (queue : s.agent.queue ≠ []) : (e.advance? s.id).isSome ∨ s.phase.call?.isSome := by
  unfold Slot.Steady at h
  rw [Engine.advance?, Engine.slot?_of_mem distinct hs, Option.bind_some]
  unfold Engine.stepSlot?
  cases hphase : s.phase with
  | waiting =>
    rw [hphase] at h
    exact absurd h.2 queue
  | stopped =>
    rw [hphase] at h
    exact absurd h.2 queue
  | delivering =>
    refine Or.inl ?_
    cases s.inbox <;> rfl
  | ready => exact Or.inl rfl
  | calling call prompt deadline => exact Or.inr rfl
  | applying effects retiring =>
    refine Or.inl ?_
    cases effects <;> rfl
  | refreshing call doc ending rest retiring => exact Or.inr rfl

/-- **Turns in flight and prompts that wait,** along every run without a shutdown. The mark of a
turn is set exactly while one is in flight, so that none begins in another; an agent that waits for
an envelope has no turn in flight and nothing on its queue, so that every queued prompt has a step or
an answer ahead of it. -/
theorem stalled_iff_inFlight (launched : Launched e) {moves : List Move}
    (running : .shutdown ∉ moves) (hs : s ∈ (e.follow moves).slots) :
    (s.agent.stalled = true ↔ InFlight (e.trace (fun e m => e.deed m s.id) moves)) ∧
    (s.phase = .ready → s.agent.stalled = false) ∧
    (s.phase = .waiting → s.agent.stalled = false ∧ s.agent.queue = []) ∧
    (s.agent.queue ≠ [] →
      ((e.follow moves).advance? s.id).isSome ∨ s.phase.call?.isSome) := by
  obtain ⟨hsteady, hflight⟩ := launched.steady running hs
  refine ⟨hflight, fun phase => ?_, fun phase => ?_, fun queue => ?_⟩
  · unfold Slot.Steady at hsteady
    rw [phase] at hsteady
    exact hsteady
  · unfold Slot.Steady at hsteady
    rw [phase] at hsteady
    exact hsteady
  · exact hsteady.served (launched.orderly.follow moves).distinct hs queue

/-- The manager is given a task and begins a turn on it. -/
def shedTurn : List Move :=
  [Move.enterRun ⟨0⟩ "go", .admitRun 0, .registerRun 0, .dispatchRun 0] ++
    List.replicate 4 (Move.advance ⟨0⟩)

/-- The manager's turn is in flight, and the coder waits with nothing on its queue. -/
theorem stalled_iff_inFlight_shed : Launched shedStart ∧ Move.shutdown ∉ shedTurn ∧
    InFlight (shedStart.trace (fun e m => e.deed m ⟨0⟩) shedTurn) ∧
    ¬ InFlight (shedStart.trace (fun e m => e.deed m ⟨1⟩) shedTurn) := by
  have running : Move.shutdown ∉ shedTurn := by simp [shedTurn]
  have hslots : ∃ manager ∈ (shedStart.follow shedTurn).slots,
      ∃ coder ∈ (shedStart.follow shedTurn).slots,
        manager.id = ⟨0⟩ ∧ manager.agent.stalled = true ∧
        coder.id = ⟨1⟩ ∧ coder.phase = .waiting := by
    decide +kernel
  obtain ⟨manager, hmanager, coder, hcoder, hid, hstalled, hid', hwaiting⟩ := hslots
  refine ⟨shed_launched, running, ?_, ?_⟩
  · rw [← hid]
    exact (stalled_iff_inFlight shed_launched running hmanager).1.mp hstalled
  · obtain ⟨hflight, -, hrest, -⟩ := stalled_iff_inFlight shed_launched running hcoder
    rw [← hid', ← hflight, (hrest hwaiting).1]
    simp

end Arbor
