import Arbor.Agent.Error
import Arbor.Agent.History
import Arbor.Agent.Kind
import Arbor.Project
import Arbor.Table
import Arbor.Task

/-! # Agents

An agent is plain state: what it is, what it owns, and what it is doing. It is active while it has a
task. Its queue, its memory and its earlier turns live for one task: `deactivate` ends the task and
clears them, and refuses to as long as a child or a helper has not reported. -/

namespace Arbor

/-- What part of the project an agent answers for. -/
inductive Scope where
  /-- The whole project, without a file of its own. -/
  | project
  | folder (dir : Path)
  | file (path : Path)
  deriving DecidableEq, Repr

namespace Scope

/-- The file of the scope. -/
def file? : Scope → Option Path
  | .file p => some p
  | _ => none

/-- The folder of the scope. -/
def folder? : Scope → Option Path
  | .folder p => some p
  | _ => none

end Scope

/-- The agent of an entry. -/
structure ChildLink where
  id : AgentId
  kind : Kind
  deriving DecidableEq, Repr

/-- A scratch file. -/
structure Scratch where
  path : Path
  /-- Whether the agent removes the file when it is done. -/
  owned : Bool
  deriving DecidableEq, Repr

/-- The state of an agent. -/
structure Agent where
  id : AgentId
  kind : Kind
  /-- How the agent is shown. -/
  name : String
  scope : Scope
  parent : Option AgentId
  /-- The agents of the entries of its folder, by the name of the entry. -/
  children : Table ChildLink
  scratch : Option Scratch
  /-- The prompts of the next turn, or of the turn in flight. -/
  queue : List String
  /-- A turn is in flight. -/
  stalled : Bool
  /-- The finished turns of the task, the oldest first. -/
  context : List Exchange
  /-- The files that every prompt shows, by their display name. -/
  memory : Table Path
  task : Option Task
  /-- Who delegated the task; nobody for a task from outside the tree. -/
  origin : Option AgentId
  /-- The children that work for the agent, with what they were asked. -/
  delegated : List (AgentId × String)
  /-- The helpers that work for the agent. -/
  helpers : List AgentId
  /-- The tasks that have ended, the oldest first. -/
  completed : List TaskId
  /-- When the agent was last active. -/
  lastActivity : Nat
  /-- How many turns in a row have failed. -/
  failures : Nat
  deriving DecidableEq, Repr

namespace Agent

/-- An agent without a task. -/
def fresh (id : AgentId) (kind : Kind) (name : String) (scope : Scope) (parent : Option AgentId)
    (now : Nat) : Agent where
  id := id
  kind := kind
  name := name
  scope := scope
  parent := parent
  children := []
  scratch := none
  queue := []
  stalled := false
  context := []
  memory := []
  task := none
  origin := none
  delegated := []
  helpers := []
  completed := []
  lastActivity := now
  failures := 0

/-- The agent has a task. -/
def isActive (a : Agent) : Bool := a.task.isSome

/-- A child or a helper has not reported yet. -/
def hasActiveWork (a : Agent) : Bool := !a.delegated.isEmpty || !a.helpers.isEmpty

/-- The folder that relative names are seen from. -/
def baseDir (project : Project) (a : Agent) : Path :=
  match a.scope with
  | .project => project.root
  | .folder dir => dir
  | .file path => path.parent?.getD project.root

/-- The notes that the agent keeps. -/
def docPath? (project : Project) (a : Agent) : Option Path :=
  match a.kind, a.scope with
  | .master, _ => some project.documentation
  | .manager, .folder dir => some (Project.docPath dir)
  | _, _ => none

/-- The entry of a child. -/
def childName? (a : Agent) (id : AgentId) : Option String :=
  (a.children.find? fun c => c.2.id = id).map Prod.fst

/-- Records activity. -/
def touch (a : Agent) (now : Nat) : Agent := { a with lastActivity := now }

/-- Puts a prompt at the end of the queue. -/
def enqueue (a : Agent) (prompt : String) : Agent := { a with queue := a.queue ++ [prompt] }

/-- Takes on a task. -/
def activate (a : Agent) (task : Task) (origin : Option AgentId) (now : Nat) : Agent :=
  { a with task := some task, origin := origin, failures := 0, lastActivity := now }

/-- Records that a child works on a prompt. -/
def delegate (a : Agent) (child : AgentId) (prompt : String) : Agent :=
  { a with delegated := (a.delegated.filter fun d => d.1 != child) ++ [(child, prompt)] }

/-- Strikes a child off those that work for the agent. -/
def dismissChild (a : Agent) (child : AgentId) : Agent :=
  { a with delegated := a.delegated.filter fun d => d.1 != child }

/-- Strikes a helper off those that work for the agent. -/
def dismissHelper (a : Agent) (helper : AgentId) : Agent :=
  { a with helpers := a.helpers.filter fun h => h != helper }

/-- Why the agent cannot end its task. -/
def busy? (a : Agent) : Option AgentError :=
  if !a.delegated.isEmpty then some (.childrenActive a.delegated.length)
  else if !a.helpers.isEmpty then some (.helpersActive a.helpers.length)
  else none

/-- The agent without its task and with nothing left of it but the record that it ended. -/
def retire (a : Agent) : Agent :=
  { a with
    task := none
    completed := a.completed ++ (a.task.map Task.id).toList
    origin := none
    memory := []
    context := []
    queue := []
    failures := 0 }

/-- **Ends the task,** unless a child or a helper still works for the agent. -/
def deactivate (a : Agent) : Except AgentError (Option Task × Agent) :=
  match a.busy? with
  | some e => .error e
  | none => .ok (a.task, a.retire)

end Agent

end Arbor
