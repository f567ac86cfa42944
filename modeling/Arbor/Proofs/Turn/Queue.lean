import Arbor.Proofs.Turn.Bookkeeping

/-! # The queue over a turn

The *talk* of an agent is what it was asked and what it replied: the queue and the earlier turns.
Every envelope adds one prompt to the queue. A reply is recorded first: the queue becomes the prompt
of one more earlier turn. Carrying the reply out leaves the talk alone, unless it ends the task and
with it the talk; what the reply leaves to say is one prompt at most.

* `Agent.receive_talk`: an envelope adds one prompt.
* `perform_talk`: what a directive does to the talk.
* `complete_talk`: what ending a turn does to it. -/

namespace Arbor

/-- What the agent was asked and what it replied. -/
def Agent.talk (a : Agent) : List String × List Exchange := (a.queue, a.context)

/-- The effect reports the end of a task. -/
def Effect.isFinish : Effect → Bool
  | .finish _ => true
  | _ => false

/-! ### Envelopes -/

/-- The prompt that an envelope becomes for the agent. -/
def Agent.wording (a : Agent) : Envelope → String
  | .plain text => text
  | .task _ task => if a.isActive then "Additional task: " ++ task.text else task.text
  | .report r => r.relay

theorem Agent.dismiss_talk (a : Agent) (sender : AgentId) :
    (a.dismiss sender).talk = a.talk ∧ (a.dismiss sender).stalled = a.stalled := by
  unfold Agent.dismiss
  split <;> exact ⟨rfl, rfl⟩

theorem Agent.takeTask_talk (a : Agent) (sender : Option AgentId) (task : Task) (now : Nat) :
    (a.takeTask sender task now).talk = (a.queue ++ [a.wording (.task sender task)], a.context) ∧
      (a.takeTask sender task now).stalled = a.stalled := by
  by_cases h : a.isActive = true
  · rw [Agent.takeTask, Agent.wording, if_pos h, if_pos h]
    exact ⟨rfl, rfl⟩
  · rw [Agent.takeTask, Agent.wording, if_neg h, if_neg h]
    exact ⟨rfl, rfl⟩

theorem Agent.takeReport_talk (a : Agent) (r : Report) :
    (a.takeReport r).talk = (a.queue ++ [r.relay], a.context) ∧
      (a.takeReport r).stalled = a.stalled := by
  unfold Agent.takeReport
  split
  · exact ⟨rfl, rfl⟩
  · obtain ⟨htalk, hstalled⟩ := a.dismiss_talk r.sender
    obtain ⟨hqueue, hcontext⟩ := Prod.mk.inj htalk
    refine ⟨?_, hstalled⟩
    simp [Agent.talk, Agent.enqueue, hqueue, hcontext]

/-- **What an envelope does to the talk.** The turn in flight stays in flight. -/
theorem Agent.receive_talk (a : Agent) (envelope : Envelope) (now : Nat) :
    (a.receive envelope now).talk = (a.queue ++ [a.wording envelope], a.context) ∧
      (a.receive envelope now).stalled = a.stalled := by
  -- the master's note of its activity concerns neither
  obtain ⟨later, hnoted⟩ := a.noted_eq now
  unfold Agent.receive
  simp only [hnoted]
  cases envelope with
  | plain text => exact ⟨rfl, rfl⟩
  | task sender task => exact Agent.takeTask_talk { a with lastActivity := later } sender task now
  | report r => exact Agent.takeReport_talk { a with lastActivity := later } r

namespace Turn

open Directive

variable {project : Project} {d d' : Desk}

/-- The desk with a reply recorded and an empty queue. -/
def recorded (prompt response : String) (d : Desk) : Desk :=
  { d with agent := { d.agent with
    context := d.agent.context ++ [⟨prompt, response⟩]
    queue := [] } }

/-- The prompt that a reply leaves: that it is no directive, or what its verb has to say. -/
def leftover? (project : Project) (prompt response : String) (d : Desk) : Option String :=
  match Directive.parse d.agent.kind.dialect response with
  | .ok x =>
    followUpPrompt? x.verb
      ((perform project x).run (recorded prompt response d) : Except AgentError Step × Desk).1
  | .error e => some ("PARSING FAILED: " ++ e.message)

/-! ### Directives -/

theorem Unmoved.talk (h : Unmoved d d') : d'.agent.talk = d.agent.talk := by
  obtain ⟨memory, now, ha⟩ := h.agent
  rw [ha]
  rfl

theorem handedOut_talk (orders : List (AgentId × String)) (d : Desk) :
    (handedOut orders d).agent.talk = d.agent.talk := by
  obtain ⟨delegated, h⟩ := handedOut_delegated orders d
  rw [h]
  rfl

theorem spawning_talk {orders : List HelperOrder} {out : Except AgentError (List Effect) × Desk}
    (h : Spawning project orders d out) : out.2.agent.talk = d.agent.talk := by
  obtain ⟨own, helpers, ha⟩ := h.agent
  rw [ha]
  rfl

theorem released_talk (d : Desk) : (released d).agent.talk = d.agent.talk := by
  simp only [released, (releaseScratch_cases d.agent d.world.site).1]
  rfl

/-- Helpers are started by no report. -/
theorem spawning_effects {orders : List HelperOrder}
    {out : Except AgentError (List Effect) × Desk} (h : Spawning project orders d out)
    {effects : List Effect} (ok : out.1 = .ok effects) : effects.any Effect.isFinish = false := by
  induction h generalizing effects with
  | done d =>
    cases ok
    rfl
  | refused order rest d e => cases ok
  | next taken more ih =>
    obtain ⟨others, hr, rfl⟩ := map_eq_ok.mp ok
    have hothers := ih hr
    simpa [Effect.isFinish] using hothers

/-- Tasks are handed on by no report. -/
theorem tasksFrom_effects (n : Nat) (orders : List (AgentId × String)) :
    (tasksFrom n orders).any Effect.isFinish = false := by
  rw [List.any_eq_false]
  intro effect he
  obtain ⟨order, -, task, rfl⟩ := mem_tasksFrom he
  simp [Effect.isFinish]

/-- What a directive can do to the talk: nothing, or end it together with the task. -/
inductive Converses (d : Desk) : Except AgentError Step × Desk → Prop where
  | goesOn {r : Except AgentError Step} {d' : Desk}
      (unfinished : (effectsOf r).any Effect.isFinish = false)
      (talk : d'.agent.talk = d.agent.talk) : Converses d (r, d')
  | ends {ending : Ending} {d' : Desk} (talk : d'.agent.talk = ([], [])) :
      Converses d (.ok ⟨.silent, [.finish ending]⟩, d')

/-- **What a directive does to the talk.** -/
theorem perform_talk {k : Dialect} (project : Project) (x : Directive k) (d : Desk) :
    Converses d ((perform project x).run d) := by
  have h := perform_performed project x d
  generalize ((perform project x).run d : Except AgentError Step × Desk) = out at h ⊢
  cases h with
  | quiet still silent => exact .goesOn (by rw [silent]; rfl) still.talk
  | wrote own write => exact .goesOn rfl rfl
  | created target creation => cases creation <;> exact .goesOn rfl rfl
  | deleted target deletion => cases deletion <;> exact .goesOn rfl rfl
  | @spawned orders d' after r note still notHelper spawning =>
    refine .goesOn ?_ ((spawning_talk spawning).trans still.talk)
    cases r with
    | error e => rfl
    | ok effects => exact spawning_effects spawning rfl
  | @handed orders d' note still children =>
    exact .goesOn (tasksFrom_effects _ orders) ((handedOut_talk orders d').trans still.talk)
  | finished idle => exact .ends (released_talk _)
  | ended still idle => exact .ends rfl

/-- Carrying out a directive adds the prompt that it leaves to the queue, or ends the talk. -/
theorem interpret_talk {k : Dialect} (project : Project) (x : Directive k) (d : Desk) :
    ((interpret project x d).1.any Effect.isFinish = false ∧
      (interpret project x d).2.agent.talk = (d.agent.queue ++ (followUpPrompt? x.verb
        ((perform project x).run d : Except AgentError Step × Desk).1).toList, d.agent.context)) ∨
    (interpret project x d).1.any Effect.isFinish = true ∧
      (interpret project x d).2.agent.talk = ([], []) := by
  have h := perform_talk project x d
  unfold interpret
  generalize ((perform project x).run d : Except AgentError Step × Desk) = out at h ⊢
  cases h with
  | @goesOn r d' unfinished talk =>
    refine Or.inl ⟨unfinished, ?_⟩
    obtain ⟨hqueue, hcontext⟩ := Prod.mk.inj talk
    simp only
    cases followUpPrompt? x.verb r with
    | none => simp [Agent.talk, hqueue, hcontext]
    | some text => simp [Agent.talk, Agent.enqueue, hqueue, hcontext]
  | ends talk => exact Or.inr ⟨rfl, talk⟩

/-! ### Turns -/

/-- **What ending a turn does to the talk.** It has one more earlier turn, and the prompt that the
reply leaves is alone on the queue; or the task has ended and the talk with it. -/
theorem complete_talk (project : Project) (prompt response : String) (d : Desk) :
    ((complete project prompt response d).1.any Effect.isFinish = false ∧
      (complete project prompt response d).2.agent.talk =
        ((leftover? project prompt response d).toList, d.agent.context ++ [⟨prompt, response⟩])) ∨
    (complete project prompt response d).1.any Effect.isFinish = true ∧
      (complete project prompt response d).2.agent.talk = ([], []) := by
  unfold complete leftover?
  simp only
  cases Directive.parse d.agent.kind.dialect response with
  | error e => exact Or.inl ⟨rfl, rfl⟩
  | ok x => exact interpret_talk project x (recorded prompt response d)

theorem complete_stalled (project : Project) (prompt response : String) (d : Desk) :
    (complete project prompt response d).2.agent.stalled = false := rfl

end Turn

end Arbor
