import Arbor.Engine.Basic

/-! # What a turn asks of other agents

One effect is applied at a time. A delegated task goes into the inbox of the child, a helper or the
agent of a new entry gets a slot, a released child loses its listing with everything below it, and
an ended task is reported to whoever gave it. The notes of a manager are refreshed before its report
leaves. -/

namespace Arbor.Engine

/-- What an agent is told whose child is gone. -/
def goneChild : String := "DELEGATE failed: the child agent no longer exists"

/-- Hands a task to a child, or tells the agent that the child is gone. -/
def handOver (e : Engine) (id child : AgentId) (task : Task) : Engine :=
  if e.accepts child then e.send child (.task (some id) task)
  else e.modifyAgent id fun a => (a.dismissChild child).enqueue goneChild

/-- The display name of a helper. -/
def helperName (project : Project) (kind : Directive.HelperKind) (scratch : Scratch) : String :=
  (Kind.helper kind).text ++ ":" ++ project.displayName scratch.path

/-- Adds a helper that finds its task in its inbox. -/
def startHelper (e : Engine) (s : Slot) (helper : AgentId) (kind : Directive.HelperKind)
    (prompt : String) (scratch : Scratch) : Engine :=
  let (task, e) := e.freshTask prompt
  let a := Agent.fresh helper (.helper kind) (helperName e.project kind scratch)
    (.file scratch.path) (some s.id) e.world.now
  e.register { a with scratch := some scratch } s.systemRole [.task (some s.id) task]

/-- Adds the agent of a new entry. -/
def adopt (e : Engine) (s : Slot) (child : AgentId) (kind : Kind) (path : Path) : Engine :=
  let a := Agent.fresh child kind (e.project.displayName path) (Roster.scopeOf kind path)
    (some s.id) e.world.now
  e.register a s.systemRole []

/-- The agents directly below an agent: those of its entries and its helpers. -/
def below (a : Agent) : List AgentId := a.children.map (fun c => c.2.id) ++ a.helpers

/-- An agent and everything below it, as far as it is listed and at most `levels` deep. -/
def subtree (e : Engine) : Nat → AgentId → List AgentId
  | 0, _ => []
  | levels + 1, id =>
    match e.listed? id with
    | none => []
    | some s => id :: (below s.agent).flatMap (e.subtree levels)

/-- Takes agents off the list. -/
def unlist (e : Engine) (ids : List AgentId) : Engine :=
  { e with slots := e.slots.map fun s => if ids.contains s.id then { s with listed := false }
    else s }

/-- **Releases an agent with everything below it.** No chain of agents is longer than the list. -/
def release (e : Engine) (id : AgentId) : Engine := e.unlist (e.subtree e.slots.length id)

/-- Gives the waiting run of a task its result; nobody may be waiting. -/
def answerRun (e : Engine) (r : Report) : Engine :=
  match e.awaited.lookup r.task.id with
  | none => e
  | some run =>
    let stage := if r.success then .finished r.payload
      else .failed (.taskFailed r.senderName r.payload)
    let e := { e with awaited := e.awaited.filter fun p => p.1 != r.task.id }
    if (e.runs[run]?).any fun x => x.stage.isOver then e else e.setStage run stage

/-- **Takes a report to its recipient;** a report to an agent that is gone is dropped. -/
def route (e : Engine) (r : Report) : Engine :=
  match r.recipient with
  | some id => if e.accepts id then e.send id (.report r) else e
  | none => e.answerRun r

/-- Reports the end of a task. A helper is taken off the list first and retires. -/
def conclude (e : Engine) (s : Slot) (ending : Ending) (rest : List Effect) (retiring : Bool) :
    Engine :=
  let helper := s.agent.kind.isHelper
  let e := if helper then e.unlist [s.id] else e
  let e := e.enter s.id (.applying rest (retiring || helper))
  match ending.task with
  | none => e
  | some task =>
    e.route {
      sender := s.id
      senderName := s.agent.name
      recipient := ending.origin
      task := task
      success := ending.success
      payload := ending.payload }

/-- The file of a manager's notes and the request for their new text. -/
def docRequest? (e : Engine) (a : Agent) (ending : Ending) : Option (Path × Model.Request) :=
  if a.kind = .manager && e.project.config.refreshDocs then do
    let doc ← a.docPath? e.project
    let vars := Turn.promptVars e.project e.world.site a ending.payload
    let vars := { vars with task := ending.task.map Task.text }
    let text ← (e.templates.render .docUpdate vars).toOption
    return (doc, { messages := [⟨.user, text⟩], system := none })
  else none

/-- Reports the end of a task, for a manager after its notes are refreshed. -/
def finish (e : Engine) (s : Slot) (ending : Ending) (rest : List Effect) (retiring : Bool) :
    Engine :=
  match e.docRequest? s.agent ending with
  | none => e.conclude s ending rest retiring
  | some (doc, request) =>
    let (call, e) := e.freshCall request
    e.enter s.id (.refreshing call doc ending rest retiring)

/-- **Applies one effect** of the agent in a slot, with `rest` to follow. -/
def applyEffect (e : Engine) (s : Slot) (effect : Effect) (rest : List Effect) (retiring : Bool) :
    Engine :=
  let next := e.enter s.id (.applying rest retiring)
  match effect with
  | .delegate child task => next.handOver s.id child task
  | .spawn helper kind prompt scratch => next.startHelper s helper kind prompt scratch
  | .adopt child kind path => next.adopt s child kind path
  | .release child => next.release child
  | .finish ending => e.finish s ending rest retiring

end Arbor.Engine
