import Arbor.Proofs.Roster
import Arbor.Proofs.Turn.Queue

/-! # Where prompts go

Prompts are put on the queue of an agent by envelopes, by what a turn leaves to say, and by failures.
A completed turn consumes the whole queue. That is the queue that the turn asked about, since nothing
is put there while the turn is in flight. Only the end of a task, too many failures and the watchdog
*clear* the queue.

* `Slot.puts`, `Slot.consumes`, `Slot.clears`: what a deed does with prompts.
* `Acts.balances`: the account over one step.
* `queue_balances`: the account over every part of a run in which the queue is not cleared. -/

namespace Arbor

open Turn

/-! ### What a deed does with prompts -/

namespace Slot

/-- The agent at its desk as a turn ends, with no failures counted. -/
def desk (e : Engine) (s : Slot) : Desk := ⟨{ s.agent with failures := 0 }, e.world⟩

/-- The prompts that a deed puts on the queue. -/
def puts (e : Engine) (s : Slot) : Deed → List String
  | .hear envelope => [s.agent.wording envelope]
  | .complete prompt response => (leftover? e.project prompt response (s.desk e)).toList
  | .fail error => ["ERROR: " ++ error]
  | .miss _ => [Engine.goneChild]
  | _ => []

/-- The queue that a deed consumes: that of a completed turn. -/
def consumes (s : Slot) : Deed → List (List String)
  | .complete _ _ => [s.agent.queue]
  | _ => []

/-- The deed clears the queue: the task ends, too many turns have failed, or the watchdog resets the
agent. -/
def clears (e : Engine) (s : Slot) : Deed → Bool
  | .complete prompt response =>
    (complete e.project prompt response (s.desk e)).1.any Effect.isFinish
  | .fail _ => e.project.config.maxFailures ≤ s.agent.failures + 1
  | .reset => true
  | _ => false

/-- A turn in flight has asked what is on the queue. -/
def Asks (s : Slot) : Prop :=
  ∀ call prompt deadline, s.phase = .calling call prompt deadline → prompt = joinedQueue s.agent

end Slot

namespace Engine

/-- The prompts that a move puts on the queue of an agent. -/
def puts (id : AgentId) (e : Engine) (m : Move) : List String :=
  (e.slot? id).elim [] fun s => s.puts e (e.deed m id)

/-- The queue of an agent that a move consumes. -/
def consumes (id : AgentId) (e : Engine) (m : Move) : List (List String) :=
  (e.slot? id).elim [] fun s => s.consumes (e.deed m id)

/-- The move clears the queue of an agent. -/
def clears (id : AgentId) (e : Engine) (m : Move) : Bool :=
  (e.slot? id).any fun s => s.clears e (e.deed m id)

/-- The queue of an agent; nothing if there is no such agent. -/
def queueOf (e : Engine) (id : AgentId) : List String :=
  (e.slot? id).elim [] fun s => s.agent.queue

/-- What the earlier turns of an agent asked. -/
def askedOf (e : Engine) (id : AgentId) : List String :=
  (e.slot? id).elim [] fun s => s.agent.context.map Exchange.prompt

end Engine

variable {e : Engine} {m : Move} {s s' : Slot}

/-! ### Turns in flight ask what is on the queue -/

theorem Slot.Keeps.talk (h : s.Keeps s') : s'.agent.talk = s.agent.talk := by
  obtain ⟨parent, ha⟩ := h.agent
  rw [ha]
  rfl

theorem Slot.Asks.keeps (h : s.Asks) (keeps : s.Keeps s') : s'.Asks := by
  intro call prompt deadline hphase
  rw [keeps.phase] at hphase
  have hqueue : s'.agent.queue = s.agent.queue := congrArg Prod.fst keeps.talk
  rw [h call prompt deadline hphase, joinedQueue, joinedQueue, hqueue]

theorem Slot.Asks.acts {deed : Deed} {errand : Errand} {n : Nat} (h : s.Asks)
    (acts : Acts e s deed s' errand n) : s'.Asks := by
  intro call prompt deadline hphase
  cases acts with
  | passed passes =>
    cases passes with
    | postponed phase =>
      cases hphase
      exact h _ _ _ phase
    | _ => cases hphase
  | began phase begun =>
    cases hphase
    obtain ⟨-, hprompt, rfl⟩ := begin_eq_some begun
    exact hprompt
  | heard phase inbox =>
    simp only [phase] at hphase
    cases hphase
  | despaired turn many gives => cases gives <;> cases hphase
  | abandoned phase gives => cases gives <;> cases hphase
  | _ => cases hphase

/-- Along every run. -/
theorem Launched.asks (launched : Launched e) {moves : List Move}
    (hs : s ∈ (e.follow moves).slots) : s.Asks := by
  refine launched.slots_follow (P := fun _ s => s.Asks) ?new ?step moves s hs
  case new =>
    intro ran s idle newborn call prompt deadline hphase
    rw [newborn.phase] at hphase
    cases hphase
  case step =>
    intro ran m s hs s' fares asks
    cases fares with
    | idle deed keeps => exact asks.keeps keeps
    | acts acts keeps => exact (asks.acts acts).keeps keeps

/-! ### The account -/

/-- **The account over a step of the agent** that does not clear its queue. -/
theorem Acts.balances {deed : Deed} {errand : Errand} {n : Nat} (h : Acts e s deed s' errand n)
    (asks : s.Asks) (kept : s.clears e deed = false) :
    s.agent.queue ++ s.puts e deed = (s.consumes deed).flatten ++ s'.agent.queue ∧
      s'.agent.context.map Exchange.prompt = s.agent.context.map Exchange.prompt ++
        (s.consumes deed).map (String.intercalate "\n\n") := by
  cases h with
  | @heard envelope rest phase inbox =>
    obtain ⟨hqueue, hcontext⟩ := Prod.mk.inj (s.agent.receive_talk envelope e.world.now).1
    simp [Slot.puts, Slot.consumes, hqueue, hcontext]
  | began phase begun =>
    obtain ⟨-, -, rfl⟩ := begin_eq_some begun
    simp [Slot.puts, Slot.consumes]
  | @completed call prompt response deadline done phase complete =>
    obtain rfl := complete
    have hprompt := asks _ _ _ phase
    rcases complete_talk e.project prompt response (s.desk e) with ⟨-, htalk⟩ | ⟨hfinish, -⟩
    · -- the turn consumes the queue that it asked, and leaves what there is to say
      obtain ⟨hqueue, hcontext⟩ := Prod.mk.inj htalk
      constructor
      · simpa [Slot.puts, Slot.consumes, Slot.desk] using hqueue.symm
      · have hmap := congrArg (List.map Exchange.prompt) hcontext
        simpa [Slot.consumes, Slot.desk, hprompt, joinedQueue] using hmap
    · rw [Slot.clears, hfinish] at kept
      cases kept
  | retried turn few => simp [Slot.puts, Slot.consumes, Slot.failed, Agent.enqueue]
  | despaired turn many gives =>
    simp only [Slot.clears, decide_eq_false_iff_not] at kept
    exact absurd many kept
  | revived phase text now => cases kept
  | abandoned phase gives => cases kept
  | missed phase gone =>
    simp [Slot.puts, Slot.consumes, Slot.bereft, Agent.enqueue, Agent.dismissChild]
  | passed passes => simp [Slot.puts, Slot.consumes]
  | reported phase => simp [Slot.puts, Slot.consumes, Slot.concluded]
  | _ => simp [Slot.puts, Slot.consumes]

/-- **The account over a move.** -/
theorem Orderly.balances (o : Orderly e) (asks : ∀ s ∈ e.slots, s.Asks) {id : AgentId}
    (kept : e.clears id m = false) :
    e.queueOf id ++ e.puts id m = (e.consumes id m).flatten ++ (e.step m).queueOf id ∧
      (e.step m).askedOf id = e.askedOf id ++
        (e.consumes id m).map (String.intercalate "\n\n") := by
  unfold Engine.queueOf Engine.askedOf Engine.puts Engine.consumes
  unfold Engine.clears at kept
  rcases o.slot?_step m id with ⟨s, s', hs, hs', hfares⟩ | ⟨hnone, hnew⟩
  · obtain ⟨hmem, rfl⟩ := Engine.mem_of_slot? hs
    simp only [hs, hs', Option.elim_some, Option.any_some] at kept ⊢
    cases hfares with
    | idle deed keeps =>
      obtain ⟨hqueue, hcontext⟩ := Prod.mk.inj keeps.talk
      simp [deed, Slot.puts, Slot.consumes, hqueue, hcontext]
    | acts acts keeps =>
      obtain ⟨hqueue, hcontext⟩ := Prod.mk.inj keeps.talk
      rw [hqueue, hcontext]
      exact acts.balances (asks s hmem) kept
  · rw [hnone]
    cases hslot : (e.step m).slot? id with
    | none => simp
    | some s' =>
      have hunused := (hnew s' hslot).unused
      simp [hunused.queue, hunused.context]

/-- **Prompts are neither lost nor doubled nor reordered.** Over any part of a run in which the queue
of an agent is not cleared, what was there and what was put there, in order, are the queues that its
turns have consumed and the queue that is left; and what those turns have asked is recorded with
them. An engine starts with empty queues and no turns. -/
theorem queue_balances (launched : Launched e) (id : AgentId) (before since : List Move)
    (kept : ∀ cleared ∈ (e.follow before).trace (Engine.clears id) since, cleared = false) :
    (e.follow before).queueOf id ++ ((e.follow before).trace (Engine.puts id) since).flatten =
      ((e.follow before).trace (Engine.consumes id) since).flatten.flatten ++
        (e.follow (before ++ since)).queueOf id ∧
    (e.follow (before ++ since)).askedOf id = (e.follow before).askedOf id ++
      ((e.follow before).trace (Engine.consumes id) since).flatten.map
        (String.intercalate "\n\n") ∧
    e.queueOf id = [] ∧ e.askedOf id = [] := by
  refine and_assoc.mp ⟨?_, ?start⟩
  case start =>
    unfold Engine.queueOf Engine.askedOf
    cases hslot : e.slot? id with
    | none => exact ⟨rfl, rfl⟩
    | some s =>
      have hunused := (launched.newborn (Engine.mem_of_slot? hslot).1).unused
      simp [hunused.queue, hunused.context]
  induction since using List.reverseRecOn with
  | nil => simp [Engine.trace]
  | append_singleton ran m ih =>
    rw [Engine.trace_concat] at kept
    obtain ⟨hqueue, hasked⟩ := ih fun cleared hc => kept cleared (List.mem_append_left _ hc)
    have hlast : Engine.clears id ((e.follow before).follow ran) m = false :=
      kept _ (List.mem_append_right _ (List.mem_singleton.mpr rfl))
    have hfollow : (e.follow before).follow ran = e.follow (before ++ ran) := by
      simp [Engine.follow]
    have hfollow' : e.follow (before ++ (ran ++ [m])) = (e.follow (before ++ ran)).step m := by
      rw [← List.append_assoc, Engine.follow_concat]
    rw [hfollow] at hlast
    obtain ⟨hstep, hstep'⟩ := (launched.orderly.follow (before ++ ran)).balances
      (fun s hs => launched.asks hs) hlast
    simp only [Engine.trace_concat, hfollow, hfollow', List.flatten_append, List.flatten_singleton]
    constructor
    · rw [← List.append_assoc, hqueue, List.append_assoc, hstep, List.append_assoc]
    · rw [hstep', hasked, List.map_append, List.append_assoc]

/-- The manager is prompted, replies with no directive, and is prompted again before it begins its
next turn. -/
def shedTalk : List Move :=
  [Move.prompt ⟨0⟩ "go"] ++ List.replicate 4 (Move.advance ⟨0⟩) ++
  [Move.answer ⟨0⟩ (.ok "hm"), .prompt ⟨0⟩ "more"] ++ List.replicate 4 (Move.advance ⟨0⟩)

/-- Its first turn has consumed the first prompt, and the others are on the queue of its second. -/
theorem queue_balances_shed : Launched shedStart ∧
    (∀ cleared ∈ (shedStart.follow []).trace (Engine.clears ⟨0⟩) shedTalk, cleared = false) ∧
    (shedStart.trace (Engine.puts ⟨0⟩) shedTalk).flatten =
      "go" :: (shedStart.follow shedTalk).queueOf ⟨0⟩ ∧
    (shedStart.follow shedTalk).askedOf ⟨0⟩ = ["go"] := by
  have kept : ∀ cleared ∈ (shedStart.follow []).trace (Engine.clears ⟨0⟩) shedTalk,
      cleared = false := by decide +kernel
  have hconsumed : ((shedStart.follow []).trace (Engine.consumes ⟨0⟩) shedTalk).flatten =
      [["go"]] := by decide +kernel
  obtain ⟨hqueue, hasked, hempty, hnone⟩ := queue_balances shed_launched ⟨0⟩ [] shedTalk kept
  rw [hconsumed] at hqueue hasked
  refine ⟨shed_launched, kept, ?_, ?_⟩
  · rw [show (shedStart.follow []).queueOf ⟨0⟩ = [] from hempty] at hqueue
    exact hqueue
  · rw [show (shedStart.follow []).askedOf ⟨0⟩ = [] from hnone] at hasked
    exact hasked

end Arbor
