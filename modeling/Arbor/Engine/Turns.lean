import Arbor.Directive.Token
import Arbor.Engine.Effects
import Arbor.Model.Error
import Arbor.Session
import Arbor.Text.Duration

/-! # Turns in the engine

A turn begins with the call of the model and ends with its answer. A rate limit or a prompt that is
too long ends the task in the agent's name. Any other failure is queued as one more prompt, until
too many turns in a row have failed: then the agent gives up its task, unless others still work for
it. -/

namespace Arbor.Engine

/-- Ends the task of an agent as failed; an agent that others work for keeps it and waits. -/
def giveUp (e : Engine) (s : Slot) (a : Agent) (payload : String) : Engine :=
  match a.deactivate with
  | .error _ => e.modifySlot s.id fun s => { s with agent := a, phase := .waiting }
  | .ok (task, idle) =>
    let (idle, site) := Turn.releaseScratch idle e.world.site
    let ending : Ending :=
      { task := task, origin := a.origin, success := false, payload := payload }
    { e with world := { e.world with site := site } }.modifySlot s.id fun s =>
      { s with agent := idle, phase := .applying [.finish ending] false }

/-- **A turn has failed.** -/
def failTurn (e : Engine) (s : Slot) (error : String) : Engine :=
  let limit := e.project.config.maxFailures
  let a := { s.agent with stalled := false, failures := s.agent.failures + 1 }
  if a.failures < limit then
    e.modifySlot s.id fun s =>
      { s with agent := a.enqueue ("ERROR: " ++ error), phase := .delivering }
  else
    e.giveUp s { a with queue := [] }
      ("gave up after " ++ Nat.repr limit ++ " failed turns: " ++ error)

/-- The first deadline of a call; only the master's calls have one. -/
def firstDeadline? (e : Engine) (a : Agent) : Option Nat :=
  if a.kind = .master then Watchdog.deadline? a.lastActivity e.project.config.watchdogInterval
  else none

/-- **Begins a turn** by calling the model. -/
def beginTurn (e : Engine) (s : Slot) : Engine :=
  match Turn.begin e.project e.templates e.world.site s.agent with
  | .error unknown => e.failTurn s unknown.message
  | .ok none => e.enter s.id .waiting
  | .ok (some (request, a)) =>
    let (call, e) := e.freshCall (.compose s.systemRole request.system request.user)
    e.modifySlot s.id fun s =>
      { s with agent := a, phase := .calling call request.prompt (e.firstDeadline? a) }

/-- **Ends a turn** with the reply to `prompt`. -/
def endTurn (e : Engine) (s : Slot) (prompt response : String) : Engine :=
  let desk : Desk := { agent := { s.agent with failures := 0 }, world := e.world }
  let (effects, after) := Turn.complete e.project prompt response desk
  { e with world := after.world }.modifySlot s.id fun s =>
    { s with agent := after.agent, phase := .applying effects false }

/-- The reply that stands in for one that the provider refused. -/
def refusalReply (error : Model.Error) : String :=
  "FINISH PROMPT=" ++ Directive.quote
    ("Stopped early: the model provider refused the request (" ++ error.kind.label ++
      "). Re-prompt me to continue.")

/-- Replaces the notes of a folder; a failure is ignored. -/
def writeNotes (e : Engine) (doc : Path) (text : String) : Engine :=
  match e.world.site.files.writeText doc (Text.trim text) with
  | .ok files => { e with world := e.world.withFiles files }
  | .error _ => e

/-- **Answers the open call of an agent.** -/
def answer (e : Engine) (id : AgentId) (reply : Except Model.Error String) : Engine :=
  match e.slot? id with
  | none => e
  | some s =>
    match s.phase, reply with
    | .calling _ prompt _, .ok text => e.endTurn s prompt text
    | .calling _ prompt _, .error error =>
      if error.isProviderSignature then e.endTurn s prompt (refusalReply error)
      else e.failTurn s error.text
    | .refreshing _ doc ending rest retiring, .ok text =>
      (e.writeNotes doc text).conclude s ending rest retiring
    | .refreshing _ _ ending rest retiring, .error _ => e.conclude s ending rest retiring
    | _, _ => e

/-! ### The watchdog -/

/-- What the human is asked after a reset. -/
def resetQuestion (interval : Nat) : String :=
  "The master was reset after " ++ Text.duration interval ++
    " without activity. Reply with a new prompt, or `exit` to stop."

/-- Asks the human how an agent that was reset goes on. The reply is the next prompt, unless it ends
the session or cannot be had. -/
def afterReset (e : Engine) (s : Slot) (a : Agent) : Engine :=
  let interval := e.project.config.watchdogInterval
  let (reply, world) := e.world.ask (resetQuestion interval)
  let e := { e with world := world }
  let goOn := match reply with
    | .ok text => if isSessionEnd text then none else some text
    | .error _ => none
  match goOn with
  | some text =>
    e.modifySlot s.id fun s =>
      { s with agent := (a.touch world.now).enqueue text, phase := .delivering }
  | none =>
    e.giveUp s a ("master reset after " ++ Text.duration interval ++ " without activity")

/-- **Looks at a call whose deadline has come;** nothing if there is nothing to change. -/
def expire? (e : Engine) (s : Slot) : Option Engine :=
  match s.phase with
  | .calling call prompt (some deadline) =>
    if e.world.now < deadline then none
    else
      match Watchdog.look e.project.config.watchdogInterval e.world.now s.agent with
      | .wait later =>
        if later = some deadline then none else some (e.enter s.id (.calling call prompt later))
      | .reset => some (e.afterReset s (Watchdog.reset s.agent))
  | _ => none

end Arbor.Engine
