import Arbor.Agent.Basic

/-! # The watchdog of the master

A call of the master has a deadline: the interval after its last activity. When the deadline comes
the agent is looked at again. It gets a later deadline if it was active in the meantime or if a
child or a helper works for it; otherwise its turn and its queue are dropped. A deadline that the
clock cannot show never comes. -/

namespace Arbor.Watchdog

/-- The greatest reading of the clock, in milliseconds. -/
def lastInstant : Nat := 0x7fffffffffffffff * 1000 + 999

/-- The instant an interval after another, if the clock can show it. -/
def deadline? (start interval : Nat) : Option Nat :=
  if start + interval ≤ lastInstant then some (start + interval) else none

/-- What is decided when a deadline has come. -/
inductive Verdict where
  /-- Go on waiting, until the next deadline if there is one. -/
  | wait (deadline : Option Nat)
  | reset
  deriving DecidableEq, Repr

/-- **Looks at an agent whose deadline has come.** The clock shows `now`, and `later` when it is read
again for the deadline of an agent at work. -/
def lookAt (interval now later : Nat) (a : Agent) : Verdict :=
  match deadline? a.lastActivity interval with
  | none => .wait none
  | some d =>
    if now < d then .wait (some d)
    else if a.hasActiveWork then .wait (deadline? later interval)
    else .reset

/-- Looks at an agent while the clock stands still. -/
def look (interval now : Nat) (a : Agent) : Verdict := lookAt interval now now a

/-- The agent without its turn and its queue. -/
def reset (a : Agent) : Agent := { a with stalled := false, queue := [] }

/-! ### A call under watch -/

variable {α : Type}

/-- What happens while a call is watched. -/
inductive Event (α : Type) where
  /-- Others have made this of the agent. -/
  | changed (a : Agent)
  /-- The call has come to a value. -/
  | answered (value : α)
  /-- Time has passed: the clock shows `now`, and `later` when it is read again. -/
  | passed (now later : Nat)
  deriving DecidableEq

/-- How a watched call stands. -/
inductive Watched (α : Type) where
  /-- It is open, until its deadline if there is one. -/
  | pending (deadline : Option Nat)
  | done (value : α)
  /-- Its deadline came while the agent was idle. -/
  | expired
  deriving DecidableEq

/-- An agent and its call. -/
structure Watch (α : Type) where
  agent : Agent
  call : Watched α
  deriving DecidableEq

namespace Watch

/-- A call that is made now. -/
def start (interval : Nat) (a : Agent) : Watch α where
  agent := a
  call := .pending (deadline? a.lastActivity interval)

/-- **One event.** Nothing happens to a call that is done or has expired, and none expires before its
deadline. -/
def step (interval : Nat) (w : Watch α) : Event α → Watch α
  | .changed a =>
    match w.call with
    | .pending _ => { w with agent := a }
    | _ => w
  | .answered value =>
    match w.call with
    | .pending _ => { w with call := .done value }
    | _ => w
  | .passed now later =>
    match w.call with
    | .pending (some deadline) =>
      if now < deadline then w
      else
        match lookAt interval now later w.agent with
        | .wait deadline => { w with call := .pending deadline }
        | .reset => { agent := reset w.agent, call := .expired }
    | _ => w

/-- **A call from its start on.** -/
def run (interval : Nat) (a : Agent) (events : List (Event α)) : Watch α :=
  events.foldl (step interval) (start interval a)

end Watch

end Arbor.Watchdog
