import Arbor.Agent.Basic

/-! # What a turn can reach

A turn changes its agent and the world: the files with the scratch files in use, the source of new
identities, and the clock. The executor of commands and the human are outside; their answers are
laid down in advance as a script, so that a turn is a function of the world it starts from. -/

namespace Arbor

/-- Answers in the order in which they are given, and the answer when none is left. -/
structure Script (α : Type) where
  answers : List α
  otherwise : α

/-- The next answer and the script behind it. -/
def Script.next {α : Type} (s : Script α) : α × Script α :=
  match s.answers with
  | [] => (s.otherwise, s)
  | a :: rest => (a, { s with answers := rest })

/-- What the executor says to a command: its output, or why it failed itself. -/
abbrev ExecutorAnswer := Except String Command.Output

/-- What the human says to a question, or why the question could not be put. -/
abbrev HumanAnswer := Except String String

/-- Everything around an agent that a turn can change. -/
structure World where
  site : Site
  executor : Script ExecutorAnswer
  human : Script HumanAnswer
  /-- The commands that were run, with their folders, the oldest first. -/
  ran : List (String × Path)
  /-- The questions that were put, the oldest first. -/
  asked : List String
  /-- The number of the next new agent or task. -/
  nextNumber : Nat
  now : Nat

namespace World

/-- A world with the given files, in which the executor and the human follow the given scripts. -/
def start (files : FileSystem) (executor : List ExecutorAnswer) (human : List HumanAnswer)
    (firstNumber : Nat) : World where
  site := { files := files, scratch := [] }
  executor := { answers := executor, otherwise := .ok { stdout := "ok", stderr := "", code := 0 } }
  human := { answers := human, otherwise := .ok "exit" }
  ran := []
  asked := []
  nextNumber := firstNumber
  now := 0

/-- The world with other files. -/
def withFiles (w : World) (files : FileSystem) : World :=
  { w with site := { w.site with files := files } }

/-- Runs a command by the executor. -/
def execute (w : World) (command : String) (cwd : Path) : ExecutorAnswer × World :=
  let (answer, rest) := w.executor.next
  (answer, { w with executor := rest, ran := w.ran ++ [(command, cwd)] })

/-- Puts a question to the human. -/
def ask (w : World) (question : String) : HumanAnswer × World :=
  let (answer, rest) := w.human.next
  (answer, { w with human := rest, asked := w.asked ++ [question] })

end World

/-- An agent in the world. -/
structure Desk where
  agent : Agent
  world : World

/-- A part of a turn: it changes the agent and the world, also where it ends in a refusal. -/
abbrev Act := ExceptT AgentError (StateM Desk)

namespace Act

/-- Changes the agent. -/
def modifyAgent (f : Agent → Agent) : Act Unit := modify fun d => { d with agent := f d.agent }

/-- Changes the world. -/
def modifyWorld (f : World → World) : Act Unit := modify fun d => { d with world := f d.world }

/-- Records activity of the agent. -/
def touch : Act Unit := modify fun d => { d with agent := d.agent.touch d.world.now }

/-- A number that was not given out before. -/
def freshNumber : Act Nat := do
  let n := (← get).world.nextNumber
  modifyWorld fun w => { w with nextNumber := n + 1 }
  return n

/-- A new agent's identity. -/
def freshAgent : Act AgentId := do return ⟨← freshNumber⟩

/-- A new task. -/
def freshTask (text : String) : Act Task := do return ⟨⟨← freshNumber⟩, text⟩

/-- Carries out a file operation, or refuses with what was being done. -/
def onFiles (action path : String) (f : FileSystem → Except OsError FileSystem) : Act Unit := do
  match f (← get).world.site.files with
  | .ok files => modifyWorld fun w => w.withFiles files
  | .error e => throw (.io action path (.os e))

/-- Runs a command by the executor. -/
def execute (command : String) (cwd : Path) : Act ExecutorAnswer := do
  let (answer, world) := (← get).world.execute command cwd
  modifyWorld fun _ => world
  return answer

/-- Puts a question to the human, and refuses if it cannot be put. -/
def ask (question : String) : Act String := do
  let (answer, world) := (← get).world.ask question
  modifyWorld fun _ => world
  match answer with
  | .ok reply => return reply
  | .error text => throw (.human text)

end Act

/-- How a task ended. -/
structure Ending where
  /-- The task, if the agent had one. -/
  task : Option Task
  /-- Who hears of it; nobody inside the tree for a task from outside. -/
  origin : Option AgentId
  success : Bool
  payload : String
  deriving DecidableEq, Repr

/-- What a directive asks of other agents. -/
inductive Effect where
  /-- Hand a task to a child. -/
  | delegate (child : AgentId) (task : Task)
  /-- Start a helper in a scratch file. -/
  | spawn (id : AgentId) (kind : Directive.HelperKind) (prompt : String) (scratch : Scratch)
  /-- Add the agent of a new entry. -/
  | adopt (id : AgentId) (kind : Kind) (path : Path)
  /-- Drop a child with everything below it. -/
  | release (child : AgentId)
  /-- Report that a task has ended. -/
  | finish (ending : Ending)
  deriving DecidableEq, Repr

/-- What a directive leaves on the queue of its agent. -/
inductive FollowUp where
  | silent
  | succeeded (note : String)
  | prompt (text : String)
  deriving DecidableEq, Repr

/-- The outcome of a directive that was carried out. -/
structure Step where
  followUp : FollowUp
  effects : List Effect
  deriving DecidableEq, Repr

namespace Step

/-- Nothing to say and nothing to ask. -/
def silent : Step := ⟨.silent, []⟩

/-- Success, with a note. -/
def succeeded (note : String) : Step := ⟨.succeeded note, []⟩

end Step

end Arbor
