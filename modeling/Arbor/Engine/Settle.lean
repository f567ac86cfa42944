import Arbor.Engine.Outside

/-! # Running the engine

`advance?` takes one step of one agent, if it has one to take without help from outside. `settle`
takes such steps until there are none, always the one of the first agent in the list that has one;
what they lead to does not depend on that choice. `elapse` lets time pass, up to the moment when the
watchdog resets the master. -/

namespace Arbor.Engine

/-- What the agent in a slot does next by itself. In an engine that was shut down whoever waits
stops, and a manager no longer waits for its notes. -/
def stepSlot? (e : Engine) (s : Slot) : Option Engine :=
  match s.phase with
  | .stopped => none
  | .waiting =>
    if e.closed || !s.listed then some (e.enter s.id .stopped)
    else if s.inbox.isEmpty then none
    else some (e.enter s.id .delivering)
  | .delivering =>
    match s.inbox with
    | [] => some (e.enter s.id (if s.agent.queue.isEmpty then .waiting else .ready))
    | envelope :: rest =>
      some (e.modifySlot s.id fun s =>
        { s with agent := s.agent.receive envelope e.world.now, inbox := rest })
  | .ready => some (e.beginTurn s)
  | .calling _ _ _ => if e.closed then some (e.enter s.id .stopped) else e.expire? s
  | .applying [] retiring => some (e.enter s.id (if retiring then .stopped else .delivering))
  | .applying (effect :: rest) retiring => some (e.applyEffect s effect rest retiring)
  | .refreshing _ _ ending rest retiring =>
    if e.closed then some (e.conclude s ending rest retiring) else none

/-- **One step of an agent.** -/
def advance? (e : Engine) (id : AgentId) : Option Engine := (e.slot? id).bind e.stepSlot?

/-- One step of the first agent that has one. -/
def advanceAny? (e : Engine) : Option Engine := e.slots.findSome? e.stepSlot?

/-- At most `limit` steps. -/
def settleWithin : Nat → Engine → Engine
  | 0, e => e
  | limit + 1, e =>
    match e.advanceAny? with
    | none => e
    | some next => settleWithin limit next

/-- How much is under way: agents, envelopes, effects, and answers that the human has left. -/
def load (e : Engine) : Nat :=
  e.slots.foldl (fun n s => n + 1 + s.inbox.length + s.phase.pending.length) 0 +
    e.world.human.answers.length + 1

/-- More steps than the engine can take by itself: each of what is under way leads to at most so
many failed turns, and their reports travel at most once through all agents. -/
def patience (e : Engine) : Nat := e.load * e.load * (4 * e.project.config.maxFailures + 16)

/-- **Takes steps until no agent has one left.** -/
def settle (e : Engine) : Engine := settleWithin e.patience e

/-! ### Time -/

/-- The next deadline of a call. -/
def nextDeadline? (e : Engine) : Option Nat :=
  (e.slots.filterMap fun s => match s.phase with
    | .calling _ _ deadline => deadline
    | _ => none).min?

/-- The engine at a later time. -/
def atTime (e : Engine) (now : Nat) : Engine :=
  { e with world := { e.world with now := max e.world.now now } }

/-- Lets time pass until `stop`, or until a deadline leads to a question to the human. At most
`limit` deadlines are looked at. -/
def elapseUntil (stop : Nat) : Nat → Engine → Engine
  | 0, e => e.atTime stop
  | limit + 1, e =>
    match e.nextDeadline? with
    | none => e.atTime stop
    | some deadline =>
      if stop < deadline then e.atTime stop
      else
        let asked := e.world.asked.length
        let next := (e.atTime deadline).settle
        if asked < next.world.asked.length then next else elapseUntil stop limit next

/-- **Lets a span of time pass,** up to the moment when the watchdog resets the master. -/
def elapse (e : Engine) (span : Nat) : Engine :=
  elapseUntil (e.world.now + span) (span + 1) e.settle

end Arbor.Engine
