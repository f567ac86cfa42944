import Arbor.Engine.Turns
import Mathlib.Data.List.Induction

/-! # Only an idle master is reset

A watched call ends in one of two ways, each by a single event: it is answered, or time passes its
deadline while the agent is idle. While it is open the agent is what others make of it.

* `lookAt_eq_reset_iff`: who is reset when looked at.
* `ended_iff`: a call has ended if one event has ended it.
* `resets_only_idle`: when a call expires, what becomes of the agent, and when it never does.
* `expire?_eq_step`: the engine looks at an open call as this is done here. -/

namespace Arbor

namespace Watchdog

variable {α : Type} {interval start now later deadline : Nat} {a : Agent}

/-! ### One look -/

theorem deadline?_of_shown (h : start + interval ≤ lastInstant) :
    deadline? start interval = some (start + interval) := if_pos h

theorem deadline?_of_unshown (h : lastInstant < start + interval) :
    deadline? start interval = none := if_neg (Nat.not_le.mpr h)

/-- **The agent is idle at `now`:** its interval has run out, at an instant that the clock can show,
and nobody works for it. -/
structure Idle (interval now : Nat) (a : Agent) : Prop where
  shown : a.lastActivity + interval ≤ lastInstant
  late : a.lastActivity + interval ≤ now
  alone : a.delegated = [] ∧ a.helpers = []

theorem hasActiveWork_eq_false_iff : a.hasActiveWork = false ↔ a.delegated = [] ∧ a.helpers = [] := by
  simp [Agent.hasActiveWork]

/-- **Exactly an idle agent is reset** when it is looked at. -/
theorem lookAt_eq_reset_iff : lookAt interval now later a = .reset ↔ Idle interval now a := by
  constructor
  · intro h
    unfold lookAt at h
    by_cases shown : a.lastActivity + interval ≤ lastInstant
    · rw [deadline?_of_shown shown] at h
      by_cases early : now < a.lastActivity + interval
      · simp [early] at h
      · cases hwork : a.hasActiveWork with
        | true => simp [early, hwork] at h
        | false =>
          exact ⟨shown, Nat.le_of_not_lt early, hasActiveWork_eq_false_iff.mp hwork⟩
    · rw [deadline?_of_unshown (Nat.lt_of_not_le shown)] at h
      cases h
  · rintro ⟨shown, late, alone⟩
    simp [lookAt, deadline?_of_shown shown, Nat.not_lt.mpr late,
      hasActiveWork_eq_false_iff.mpr alone]

/-- There is no deadline for an instant that the clock cannot show. -/
theorem lookAt_of_unshown (h : lastInstant < a.lastActivity + interval) :
    lookAt interval now later a = .wait none := by
  simp [lookAt, deadline?_of_unshown h]

namespace Watch

variable {w : Watch α} {call : Watched α} {event : Event α} {events before after : List (Event α)}

/-! ### How a call ends -/

/-- The call has an end. -/
def IsOver (call : Watched α) : Prop := ∀ deadline, call ≠ .pending deadline

theorem isOver_expired : IsOver (.expired : Watched α) := fun _ h => nomatch h

theorem isOver_done (value : α) : IsOver (.done value) := fun _ h => nomatch h

/-- Nothing happens after the end. -/
theorem step_of_over (closed : IsOver w.call) (event : Event α) : step interval w event = w := by
  cases hcall : w.call with
  | pending deadline => exact absurd hcall (closed deadline)
  | done value => cases event <;> simp [step, hcall]
  | expired => cases event <;> simp [step, hcall]

theorem foldl_of_over (closed : IsOver w.call) (events : List (Event α)) :
    events.foldl (step interval) w = w := by
  induction events with
  | nil => rfl
  | cons event events ih => rw [List.foldl_cons, step_of_over closed, ih]

theorem run_append (interval : Nat) (a : Agent) (before after : List (Event α)) :
    run interval a (before ++ after) = after.foldl (step interval) (run interval a before) :=
  List.foldl_append

theorem run_concat (interval : Nat) (a : Agent) (events : List (Event α)) (event : Event α) :
    run interval a (events ++ [event]) = step interval (run interval a events) event :=
  run_append interval a events [event]

/-- What happens after the end does not count. -/
theorem run_of_ended (closed : IsOver (step interval (run interval a before) event).call)
    (after : List (Event α)) :
    run interval a (before ++ event :: after) = step interval (run interval a before) event := by
  rw [run_append, List.foldl_cons, foldl_of_over closed]

/-- **A call has ended if one event has ended it** while it was open. -/
theorem ended_iff (closed : IsOver call) :
    (run interval a events).call = call ↔
      ∃ before event after deadline, events = before ++ event :: after ∧
        (run interval a before).call = .pending deadline ∧
        (step interval (run interval a before) event).call = call := by
  constructor
  · intro h
    -- the last event, and those before it
    induction events using List.reverseRecOn with
    | nil => exact absurd h.symm (closed _)
    | append_singleton events last ih =>
      by_cases earlier : (run interval a events).call = call
      · obtain ⟨before, event, after, deadline, hevents, hopen, hend⟩ := ih earlier
        exact ⟨before, event, after ++ [last], deadline, by simp [hevents], hopen, hend⟩
      · rw [run_concat] at h
        cases hcall : (run interval a events).call with
        | pending deadline => exact ⟨events, last, [], deadline, rfl, hcall, h⟩
        | done value =>
          rw [step_of_over (hcall ▸ isOver_done value)] at h
          exact absurd h earlier
        | expired =>
          rw [step_of_over (hcall ▸ isOver_expired)] at h
          exact absurd h earlier
  · rintro ⟨before, event, after, deadline, rfl, -, hend⟩
    rw [run_of_ended (hend ▸ closed), hend]

/-- Time ends an open call exactly if its deadline has come and the agent is idle. -/
theorem step_eq_expired_iff {deadline : Option Nat} (hopen : w.call = .pending deadline) :
    (step interval w event).call = .expired ↔
      ∃ now later due, event = .passed now later ∧ deadline = some due ∧ due ≤ now ∧
        Idle interval now w.agent := by
  cases event with
  | changed b => simp [step, hopen]
  | answered value => simp [step, hopen]
  | passed now later =>
    cases deadline with
    | none => simp [step, hopen]
    | some due =>
      by_cases early : now < due
      · have hnot : ¬ due ≤ now := Nat.not_le.mpr early
        simp [step, hopen, early, hnot]
      · have hdue : due ≤ now := Nat.le_of_not_lt early
        have hlook : lookAt interval now later w.agent = .reset ↔ _ := lookAt_eq_reset_iff
        cases hverdict : lookAt interval now later w.agent with
        | wait next =>
          have hbusy : ¬ Idle interval now w.agent := fun idle => by
            rw [hlook.mpr idle] at hverdict
            cases hverdict
          simp [step, hopen, early, hverdict, hbusy]
        | reset => simp [step, hopen, early, hdue, hverdict, hlook.mp hverdict]

/-- An answer ends an open call, and nothing else makes it done. -/
theorem step_eq_done_iff {deadline : Option Nat} {value : α} (hopen : w.call = .pending deadline) :
    (step interval w event).call = .done value ↔ event = .answered value := by
  cases event with
  | changed b => simp [step, hopen]
  | answered other => simp [step, hopen]
  | passed now later =>
    cases deadline with
    | none => simp [step, hopen]
    | some due =>
      by_cases early : now < due
      · simp [step, hopen, early]
      · cases hverdict : lookAt interval now later w.agent <;> simp [step, hopen, early, hverdict]

/-! ### What others make of the agent -/

/-- What others make of an agent by an event. -/
def made (a : Agent) : Event α → Agent
  | .changed b => b
  | _ => a

/-- What others make of an agent by events. -/
def others (a : Agent) (events : List (Event α)) : Agent := events.foldl made a

/-- The watchdog leaves the agent of a call that stays open as others make it. -/
theorem agent_step {deadline deadline' : Option Nat} (hopen : w.call = .pending deadline)
    (still : (step interval w event).call = .pending deadline') :
    (step interval w event).agent = made w.agent event := by
  cases event with
  | changed b => simp [step, hopen, made]
  | answered value => simp [step, hopen] at still
  | passed now later =>
    cases deadline with
    | none => simp [step, hopen, made]
    | some due =>
      by_cases early : now < due
      · simp [step, hopen, early, made]
      · cases hverdict : lookAt interval now later w.agent with
        | wait next => simp [step, hopen, early, hverdict, made]
        | reset => simp [step, hopen, early, hverdict] at still

/-- The agent of a call that expires is reset. -/
theorem agent_of_expired {deadline : Option Nat} (hopen : w.call = .pending deadline)
    (ends : (step interval w event).call = .expired) :
    (step interval w event).agent = reset w.agent := by
  obtain ⟨now, later, due, rfl, rfl, hdue, hidle⟩ := (step_eq_expired_iff hopen).mp ends
  simp [step, hopen, Nat.not_lt.mpr hdue, lookAt_eq_reset_iff.mpr hidle]

/-- A call that is open after an event was open before it. -/
theorem pending_of_step {deadline : Option Nat}
    (still : (step interval w event).call = .pending deadline) :
    ∃ before, w.call = .pending before := by
  cases hcall : w.call with
  | pending before => exact ⟨before, rfl⟩
  | done value =>
    rw [step_of_over (hcall ▸ isOver_done value), hcall] at still
    cases still
  | expired =>
    rw [step_of_over (hcall ▸ isOver_expired), hcall] at still
    cases still

/-- **While a call is open the agent is what others make of it.** -/
theorem agent_of_pending {deadline : Option Nat}
    (hopen : (run interval a events).call = .pending deadline) :
    (run interval a events).agent = others a events := by
  induction events using List.reverseRecOn generalizing deadline with
  | nil => rfl
  | append_singleton events last ih =>
    rw [run_concat] at hopen ⊢
    obtain ⟨before, hbefore⟩ := pending_of_step hopen
    rw [agent_step hbefore hopen, ih hbefore, others, others, List.foldl_append, List.foldl_cons,
      List.foldl_nil]

/-! ### A call without a deadline -/

/-- The call will not expire: it is open without a deadline, or done. -/
def NeverExpires (call : Watched α) : Prop := call = .pending none ∨ ∃ value, call = .done value

theorem NeverExpires.step (h : NeverExpires w.call) : NeverExpires (step interval w event).call := by
  rcases h with hopen | ⟨value, hdone⟩
  · cases event with
    | answered value => exact Or.inr ⟨value, by simp [Watch.step, hopen]⟩
    | changed b => exact Or.inl (by simp [Watch.step, hopen])
    | passed now later => exact Or.inl (by simp [Watch.step, hopen])
  · rw [step_of_over (hdone ▸ isOver_done value)]
    exact Or.inr ⟨value, hdone⟩

theorem NeverExpires.foldl (h : NeverExpires w.call) (events : List (Event α)) :
    (events.foldl (Watch.step interval) w).call ≠ .expired := by
  induction events generalizing w with
  | nil =>
    rcases h with hopen | ⟨value, hdone⟩
    · simp [hopen]
    · simp [hdone]
  | cons event events ih => exact ih h.step

/-! ### What a watched call comes to -/

/-- **The watchdog resets only an agent that is idle.** A call expires exactly if time passes its
deadline while it is open and its agent idle; then the turn and the queue of the agent are dropped,
and all else is left as others have made it. A call is done with a value exactly if that is the first
to end it, and the agent is then as others have made it, as it is while the call is open. A call whose
interval ends at an instant that the clock cannot show, when it starts or when its agent is looked at,
never expires. The readings of the clock need not even be in order. -/
theorem resets_only_idle (interval : Nat) (a : Agent) (events : List (Event α)) :
    ((run interval a events).call = .expired ↔
      ∃ before now later after due, events = before ++ .passed now later :: after ∧
        (run interval a before).call = .pending (some due) ∧ due ≤ now ∧
        Idle interval now (others a before) ∧
        (run interval a events).agent = { others a before with stalled := false, queue := [] }) ∧
    (∀ value, (run interval a events).call = .done value ↔
      ∃ before after deadline, events = before ++ .answered value :: after ∧
        (run interval a before).call = .pending deadline ∧
        (run interval a events).agent = others a before) ∧
    (∀ deadline, (run interval a events).call = .pending deadline →
      (run interval a events).agent = others a events) ∧
    (lastInstant < a.lastActivity + interval → (run interval a events).call ≠ .expired) ∧
    (∀ before now later after due, events = before ++ .passed now later :: after →
      (run interval a before).call = .pending (some due) → due ≤ now →
      lastInstant < (others a before).lastActivity + interval →
      (run interval a events).call ≠ .expired) := by
  refine ⟨⟨fun h => ?_, ?_⟩, fun value => ⟨fun h => ?_, ?_⟩, fun _ => agent_of_pending,
    fun unshown => ?_, ?_⟩
  · obtain ⟨before, event, after, deadline, hevents, hopen, hend⟩ := (ended_iff isOver_expired).mp h
    obtain ⟨now, later, due, rfl, rfl, hdue, hidle⟩ := (step_eq_expired_iff hopen).mp hend
    rw [agent_of_pending hopen] at hidle
    refine ⟨before, now, later, after, due, hevents, hopen, hdue, hidle, ?_⟩
    rw [hevents, run_of_ended (hend ▸ isOver_expired), agent_of_expired hopen hend,
      agent_of_pending hopen]
    rfl
  · rintro ⟨before, now, later, after, due, hevents, hopen, hdue, hidle, -⟩
    rw [← agent_of_pending hopen] at hidle
    exact (ended_iff isOver_expired).mpr ⟨before, _, after, _, hevents, hopen,
      (step_eq_expired_iff hopen).mpr ⟨now, later, due, rfl, rfl, hdue, hidle⟩⟩
  · obtain ⟨before, event, after, deadline, hevents, hopen, hend⟩ :=
      (ended_iff (isOver_done value)).mp h
    obtain rfl := (step_eq_done_iff hopen).mp hend
    refine ⟨before, after, deadline, hevents, hopen, ?_⟩
    rw [hevents, run_of_ended (hend ▸ isOver_done value), ← agent_of_pending hopen]
    simp only [step, hopen]
  · rintro ⟨before, after, deadline, hevents, hopen, -⟩
    exact (ended_iff (isOver_done value)).mpr
      ⟨before, _, after, _, hevents, hopen, (step_eq_done_iff hopen).mpr rfl⟩
  · refine NeverExpires.foldl (Or.inl ?_) events
    exact congrArg Watched.pending (deadline?_of_unshown unshown)
  · rintro before now later after due rfl hopen hdue unshown
    rw [run_append, List.foldl_cons]
    refine NeverExpires.foldl (Or.inl ?_) after
    rw [← agent_of_pending hopen] at unshown
    simp [step, hopen, Nat.not_lt.mpr hdue, lookAt_of_unshown unshown]

/-- A master that was prompted at 0. -/
def prompted : Agent :=
  { Agent.fresh ⟨0⟩ .master "master" .project none 0 with stalled := true, queue := ["go"] }

/-- The same at work. -/
def working : Agent := { prompted with helpers := [⟨1⟩] }

/-- At work its deadline moves from 50 to 110; idle by then, it is reset. -/
def nightWatch : List (Event Unit) :=
  [.changed working, .passed 60 60, .changed prompted, .passed 110 110]

/-- The master of the night watch was idle when it was reset. With an interval that the clock cannot
show it is not reset at all. -/
theorem resets_only_idle_nightWatch :
    (∃ (before : List (Event Unit)) (now : Nat), Idle 50 now (others prompted before) ∧
      (run 50 prompted nightWatch).agent =
        { others prompted before with stalled := false, queue := [] }) ∧
    lastInstant < prompted.lastActivity + (lastInstant + 1) ∧
    (run (lastInstant + 1) prompted nightWatch).call ≠ .expired := by
  have hlate : (run 50 prompted nightWatch).call = .expired := by decide
  have hunshown : lastInstant < prompted.lastActivity + (lastInstant + 1) := by decide
  obtain ⟨before, now, later, after, due, -, -, -, hidle, hagent⟩ :=
    (resets_only_idle 50 prompted nightWatch).1.mp hlate
  exact ⟨⟨before, now, hidle, hagent⟩, hunshown,
    (resets_only_idle (lastInstant + 1) prompted nightWatch).2.2.2.1 hunshown⟩

end Watch

end Watchdog

/-! ### The watchdog of the engine -/

namespace Engine

open Watchdog

/-- A call of the master starts with the deadline of a call under watch. -/
theorem firstDeadline?_of_master {e : Engine} {a : Agent} (master : a.kind = .master) :
    (Watch.start e.project.config.watchdogInterval a : Watch Unit) =
      { agent := a, call := .pending (e.firstDeadline? a) } := by
  rw [firstDeadline?, if_pos master]
  rfl

/-- **The engine lets time pass for an open call** as it passes for a call under watch: a later
deadline is recorded, an agent that is reset goes on to the human, and otherwise nothing happens. -/
theorem expire?_eq_step {e : Engine} {s : Slot} {call : Call} {prompt : String}
    {deadline : Option Nat} (phase : s.phase = .calling call prompt deadline) :
    e.expire? s =
      let w : Watch Unit := Watch.step e.project.config.watchdogInterval
        ⟨s.agent, .pending deadline⟩ (.passed e.world.now e.world.now)
      match w.call with
      | .pending later =>
        if later = deadline then none else some (e.enter s.id (.calling call prompt later))
      | .done _ => none
      | .expired => some (e.afterReset s w.agent) := by
  unfold expire?
  cases deadline with
  | none => simp [phase, Watch.step]
  | some due =>
    by_cases early : e.world.now < due
    · simp [phase, Watch.step, early]
    · simp only [phase, Watch.step, early, if_false, look]
      cases lookAt e.project.config.watchdogInterval e.world.now e.world.now s.agent <;> rfl

end Engine

end Arbor
