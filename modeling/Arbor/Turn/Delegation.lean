import Arbor.Session
import Arbor.Turn.Entries
import Arbor.Turn.Scratch

/-! # Handing on work and reporting

A manager gives its children prompts, all or none of them; the master gives its prompt to the root
manager. An agent waits for reports, and ends its own task by a report when none is outstanding. The
master reports to the human instead, who may go on with the session. -/

namespace Arbor.Turn

open Directive

/-- The child that a target names. -/
def childOf (a : Agent) (t : Target) : Except AgentError (String × AgentId) :=
  let name := bareName t.name
  match a.children.get? name with
  | none => .error (.noChild t)
  | some link =>
    let isFolder := decide (link.kind = .manager)
    if isFolder != t.isFolder then .error (.otherChild name isFolder) else .ok (name, link.id)

/-- Hands prompts to children in turn. -/
def handOut : List (AgentId × String) → Act (List Effect)
  | [] => return []
  | (child, prompt) :: rest => do
    Act.modifyAgent fun a => a.delegate child prompt
    let task ← Act.freshTask prompt
    let more ← handOut rest
    return .delegate child task :: more

/-- **Gives each named child its prompt.** All names are looked up first. -/
def assign (assignments : List (Target × String)) : Act Step := do
  let a := (← get).agent
  let children ← (assignments.mapM (fun x => childOf a x.1) : Except AgentError _)
  let effects ← handOut ((children.map Prod.snd).zip (assignments.map Prod.snd))
  return ⟨.succeeded ("delegated to " ++ String.intercalate ", " (children.map Prod.fst)), effects⟩

/-- **Gives the root manager a prompt.** -/
def delegateToRoot (prompt : String) : Act Step := do
  match (← get).agent.children with
  | [] => throw .noRoot
  | (_, root) :: _ =>
    let effects ← handOut [(root.id, prompt)]
    return ⟨.succeeded "delegated to root agent", effects⟩

/-- **Waits for a report.** -/
def wait : Act Step := do
  if (← get).agent.hasActiveWork then return .silent else throw .nothingToWaitFor

/-- Ends the agent's task and reports it. -/
def endTask (payload : String) : Act Step := do
  let a := (← get).agent
  match a.deactivate with
  | .error e => throw e
  | .ok (task, rest) =>
    Act.modifyAgent fun _ => rest
    let ending : Ending := { task := task, origin := a.origin, success := true, payload := payload }
    return ⟨.silent, [.finish ending]⟩

/-- What an agent reports that has nothing to say. -/
def plainReport (project : Project) (a : Agent) : String :=
  project.displayName (a.baseDir project) ++ " finished"

/-- **Ends the task of a manager, a coder or a helper** and lets go of its scratch file. -/
def finish (project : Project) (report : String) : Act Step := do
  let a := (← get).agent
  let payload := if (Text.trimChars report.toList).isEmpty then plainReport project a else report
  let step ← endTask payload
  modify fun d =>
    let (agent, site) := releaseScratch d.agent d.world.site
    { agent := agent, world := { d.world with site := site } }
  return step

/-- **Reports to the human** once nothing is outstanding. The reply is the next prompt, unless it
ends the session. -/
def finishMaster (report : String) : Act Step := do
  let a := (← get).agent
  if !a.delegated.isEmpty then throw .rootActive
  if !a.helpers.isEmpty then throw (.helpersActive a.helpers.length)
  let reply ← Act.ask report
  Act.touch
  if isSessionEnd reply then endTask report else return ⟨.prompt reply, []⟩

/-- **Asks the human something** and goes on. -/
def message (question : String) : Act Step := do
  let reply ← Act.ask question
  Act.touch
  return .succeeded ("human replied: " ++ reply)

end Arbor.Turn
