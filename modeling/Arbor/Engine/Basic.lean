import Arbor.Agent.Reception
import Arbor.Engine.Watchdog
import Arbor.Model.Request
import Arbor.Roster
import Arbor.Turn.Round

/-! # The engine

The engine holds all agents, each in a slot with its inbox and the phase that it is in, and the
world that they share. Nothing here runs by itself: every change is a step, a function from engines
to engines, and the steps of different agents may be taken in any order.

* An agent *waits* for an envelope, has its inbox *delivered*, is *ready* for a turn, waits for the
  answer to its *call*, has the effects of the turn *applied* one by one, and then looks at its
  inbox again. A manager that ends a task waits for the answer to a second call, which *refreshes*
  its notes. A *stopped* agent takes no more steps.
* An agent that was released is no longer listed: it cannot be found or written to, but it finishes
  the turn that it is in.
* A run is a task from outside the tree; its stages are steps of their own. -/

namespace Arbor

/-- A call of the model that waits for its answer. -/
structure Call where
  /-- Calls are numbered in the order in which they are opened. -/
  number : Nat
  request : Model.Request
  deriving DecidableEq, Repr

/-- What an agent is at. -/
inductive Phase where
  /-- Waits for an envelope. -/
  | waiting
  /-- Takes in its inbox. -/
  | delivering
  /-- Has prompts and no turn. -/
  | ready
  /-- Waits for the answer of a turn that asked `prompt`. -/
  | calling (call : Call) (prompt : String) (deadline : Option Nat)
  /-- Has effects left; a retiring agent stops behind them. -/
  | applying (effects : List Effect) (retiring : Bool)
  /-- Waits for the new text of its notes before it reports `ending`. -/
  | refreshing (call : Call) (doc : Path) (ending : Ending) (rest : List Effect) (retiring : Bool)
  | stopped
  deriving DecidableEq, Repr

namespace Phase

/-- The call that the agent waits for. -/
def call? : Phase → Option Call
  | .calling c _ _ => some c
  | .refreshing c _ _ _ _ => some c
  | _ => none

/-- The effects that are left. -/
def pending : Phase → List Effect
  | .applying effects _ => effects
  | .refreshing _ _ ending rest _ => .finish ending :: rest
  | _ => []

end Phase

/-- An agent in the engine. -/
structure Slot where
  agent : Agent
  /-- The agent's model takes a system text. -/
  systemRole : Bool
  /-- The agent can be found and written to. -/
  listed : Bool
  inbox : List Envelope
  phase : Phase
  deriving DecidableEq, Repr

/-- The identity of the agent. -/
def Slot.id (s : Slot) : AgentId := s.agent.id

/-- Why a request from outside fails. -/
inductive EngineError where
  | unknownAgent (id : AgentId)
  | busy (name : String)
  | masterAttached
  | shutDown
  | taskFailed (agent payload : String)
  deriving DecidableEq, Repr

/-- The wording of a failure. -/
def EngineError.message : EngineError → String
  | .unknownAgent id => "Unknown agent: " ++ id.text
  | .busy name => "Agent " ++ name ++ " is already working on a task"
  | .masterAttached => "A master agent is already attached"
  | .shutDown => "Engine shut down before the task finished"
  | .taskFailed agent payload => agent ++ " failed: " ++ payload

/-- How far a run is. -/
inductive RunStage where
  /-- Nothing has been looked at. -/
  | entered
  /-- The agent was there and idle. -/
  | admitted
  /-- The result is awaited, and the task not sent yet. -/
  | registered (task : Task)
  /-- The task was sent. -/
  | sent (task : Task)
  /-- The task succeeded with a payload. -/
  | finished (payload : String)
  | failed (error : EngineError)
  deriving DecidableEq, Repr

/-- The run has its result. -/
def RunStage.isOver : RunStage → Bool
  | .finished _ => true
  | .failed _ => true
  | _ => false

/-- A task from outside the tree whose result is awaited. -/
structure Run where
  agent : AgentId
  text : String
  stage : RunStage
  deriving DecidableEq, Repr

/-- All agents and what they share. -/
structure Engine where
  project : Project
  templates : Turn.Templates
  world : World
  slots : List Slot
  root : AgentId
  master : Option AgentId
  runs : List Run
  /-- The runs that wait for the result of a task, by the task. -/
  awaited : List (TaskId × Nat)
  /-- The number of the next call. -/
  nextCall : Nat
  /-- The engine was shut down. -/
  closed : Bool

namespace Engine

/-- **Starts the agents of a roster,** all of them idle. -/
def launch (project : Project) (templates : Turn.Templates) (world : World) (roster : Roster)
    (systemRole : Bool) : Engine where
  project := project
  templates := templates
  world := world
  slots := roster.agents.map fun a =>
    { agent := a, systemRole := systemRole, listed := true, inbox := [], phase := .waiting }
  root := roster.root
  master := none
  runs := []
  awaited := []
  nextCall := 0
  closed := false

/-- The slot of an agent, listed or not. -/
def slot? (e : Engine) (id : AgentId) : Option Slot := e.slots.find? fun s => s.id = id

/-- The slot of an agent that is listed. -/
def listed? (e : Engine) (id : AgentId) : Option Slot :=
  e.slots.find? fun s => s.id = id && s.listed

/-- The agents that are listed. -/
def agents (e : Engine) : List Agent := (e.slots.filter Slot.listed).map Slot.agent

/-- The agent of a display name. -/
def find? (e : Engine) (name : String) : Option AgentId :=
  (e.agents.find? fun a => a.name = name).map Agent.id

/-- Changes the slot of an agent. -/
def modifySlot (e : Engine) (id : AgentId) (f : Slot → Slot) : Engine :=
  { e with slots := e.slots.map fun s => if s.id = id then f s else s }

/-- Changes an agent. -/
def modifyAgent (e : Engine) (id : AgentId) (f : Agent → Agent) : Engine :=
  e.modifySlot id fun s => { s with agent := f s.agent }

/-- Puts an agent into a phase. -/
def enter (e : Engine) (id : AgentId) (phase : Phase) : Engine :=
  e.modifySlot id fun s => { s with phase := phase }

/-- An envelope to the agent would land in its inbox. -/
def accepts (e : Engine) (id : AgentId) : Bool :=
  (e.listed? id).any fun s => s.phase != .stopped

/-- Puts an envelope into an inbox. -/
def send (e : Engine) (id : AgentId) (envelope : Envelope) : Engine :=
  e.modifySlot id fun s => { s with inbox := s.inbox ++ [envelope] }

/-- Adds an agent that waits, with the envelopes it finds. -/
def register (e : Engine) (a : Agent) (systemRole : Bool) (inbox : List Envelope) : Engine :=
  { e with slots := e.slots ++
      [{ agent := a, systemRole := systemRole, listed := true, inbox := inbox, phase := .waiting }] }

/-- A number that was not given out before. -/
def freshNumber (e : Engine) : Nat × Engine :=
  (e.world.nextNumber, { e with world := { e.world with nextNumber := e.world.nextNumber + 1 } })

/-- A new task. -/
def freshTask (e : Engine) (text : String) : Task × Engine :=
  let (n, e) := e.freshNumber
  (⟨⟨n⟩, text⟩, e)

/-- A new call. -/
def freshCall (e : Engine) (request : Model.Request) : Call × Engine :=
  ({ number := e.nextCall, request := request }, { e with nextCall := e.nextCall + 1 })

/-- Sets how far a run is. -/
def setStage (e : Engine) (run : Nat) (stage : RunStage) : Engine :=
  { e with runs := e.runs.modify run fun r => { r with stage := stage } }

end Engine

end Arbor
