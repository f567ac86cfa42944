import Arbor.Agent.Id

/-! # Tasks and envelopes

Agents work on tasks and hear of each other through envelopes: a plain prompt, a task, or the result
of a task that was handed on. -/

namespace Arbor

/-- The identity of a task. -/
structure TaskId where
  number : Nat
  deriving DecidableEq, Repr

/-- A unit of work. -/
structure Task where
  id : TaskId
  text : String
  deriving DecidableEq, Repr

/-- The report on a task that has ended. -/
structure Report where
  sender : AgentId
  senderName : String
  /-- Who delegated the task; nobody for a task from outside the tree. -/
  recipient : Option AgentId
  task : Task
  success : Bool
  payload : String
  deriving DecidableEq, Repr

/-- The prompt that a report becomes for its recipient. -/
def Report.relay (r : Report) : String :=
  "[" ++ r.senderName ++ "] (Task: " ++ r.task.text ++ ") " ++
    (if r.success then "" else "FAILED: ") ++ r.payload

/-- What lands in an inbox. -/
inductive Envelope where
  /-- A prompt without a task. -/
  | plain (text : String)
  /-- A task, from an agent or from outside the tree. -/
  | task (sender : Option AgentId) (task : Task)
  /-- The report on a delegated task. -/
  | report (report : Report)
  deriving DecidableEq, Repr

/-- The bare text of an envelope. -/
def Envelope.prompt : Envelope → String
  | .plain text => text
  | .task _ t => t.text
  | .report r => r.payload

end Arbor
