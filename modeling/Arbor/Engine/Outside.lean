import Arbor.Engine.Turns

/-! # Requests from outside the tree

A prompt without a task goes straight into an inbox. A run hands a task to an agent and waits for
its result in four stages, which are steps of their own: the agent is looked up and has to be idle,
the run is entered as waiting, the task is sent, and the result comes back. A master may be put
above the root, once. -/

namespace Arbor.Engine

/-- **Sends a prompt without a task.** -/
def sendPrompt (e : Engine) (id : AgentId) (text : String) : Except EngineError Engine :=
  if e.accepts id then .ok (e.send id (.plain text)) else .error (.unknownAgent id)

/-! ### Runs -/

/-- Enters a run and gives its number. -/
def enterRun (e : Engine) (id : AgentId) (text : String) : Nat × Engine :=
  (e.runs.length, { e with runs := e.runs ++ [{ agent := id, text := text, stage := .entered }] })

/-- Looks up the agent of a run, which has to be idle. -/
def admitRun (e : Engine) (n : Nat) : Engine :=
  match e.runs[n]? with
  | some { agent, text := _, stage := .entered } =>
    match e.listed? agent with
    | none => e.setStage n (.failed (.unknownAgent agent))
    | some s =>
      if s.agent.isActive then e.setStage n (.failed (.busy s.agent.name))
      else e.setStage n .admitted
  | _ => e

/-- Enters the run as waiting for the result of a new task. -/
def registerRun (e : Engine) (n : Nat) : Engine :=
  match e.runs[n]? with
  | some { agent := _, text, stage := .admitted } =>
    let (task, e) := e.freshTask text
    { e with awaited := e.awaited ++ [(task.id, n)] }.setStage n (.registered task)
  | _ => e

/-- Sends the task of the run. The inbox of an agent that was released since is still open. -/
def dispatchRun (e : Engine) (n : Nat) : Engine :=
  match e.runs[n]? with
  | some { agent, text := _, stage := .registered task } =>
    if (e.slot? agent).any fun s => s.phase != .stopped then
      (e.send agent (.task none task)).setStage n (.sent task)
    else e.setStage n (.failed .shutDown)
  | _ => e

/-- **Hands a task to an agent** and waits for its result. -/
def run (e : Engine) (id : AgentId) (text : String) : Engine :=
  let (n, e) := e.enterRun id text
  ((e.admitRun n).registerRun n).dispatchRun n

/-! ### The master -/

/-- Makes the documentation, empty, where there is none; a failure is ignored. -/
def ensureDocumentation (project : Project) (files : FileSystem) : FileSystem :=
  if files.exists? project.documentation then files
  else (files.writeText project.documentation "").toOption.getD files

/-- The master of a root manager. -/
def masterOf (id : AgentId) (root : Agent) (now : Nat) : Agent :=
  { Agent.fresh id .master "master" .project none now with
    children := [(root.name, { id := root.id, kind := .manager })] }

/-- **Puts a master above the root,** with a model of its own or with the root's. -/
def attachMaster (e : Engine) (systemRole : Option Bool) : Except EngineError Engine :=
  match e.master, e.listed? e.root with
  | some _, _ => .error .masterAttached
  | none, none => .error (.unknownAgent e.root)
  | none, some root =>
    let (n, e) := e.freshNumber
    let id : AgentId := ⟨n⟩
    let e := e.modifyAgent e.root fun a => { a with parent := some id }
    let files := ensureDocumentation e.project e.world.site.files
    let e := { e with world := e.world.withFiles files, master := some id }
    .ok (e.register (masterOf id root.agent e.world.now) (systemRole.getD root.systemRole) [])

/-! ### The end -/

/-- The run as the end of the engine leaves it. -/
def cutShort (r : Run) : Run :=
  if r.stage.isOver then r else { r with stage := .failed .shutDown }

/-- **Shuts the engine down.** Runs that still wait fail; agents stop when they are stepped next. -/
def shutdown (e : Engine) : Engine := { e with closed := true, runs := e.runs.map cutShort }

end Arbor.Engine
