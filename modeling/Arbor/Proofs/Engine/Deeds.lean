import Arbor.Proofs.Engine.Moves

/-! # What a move has an agent do

A move is a step of one agent, or comes from outside. The step of an agent changes its own slot, and
then runs one *errand*: it puts an envelope into an inbox, adds an agent, or takes agents off the
list.

* `Deed`, `Engine.deed`: what a move has an agent do with its queue, its turn and its task.
* `Acts`: for every deed what it makes of the agent's slot, and the errand that goes with it.
* `Slot.Leaves`: for every deed what it makes of the files.
* `Change`: what a move makes of all slots. That every move does so is shown in `Changes`. -/

namespace Arbor

open Turn

/-! ### Deeds -/

/-- What a move has an agent do. -/
inductive Deed where
  /-- It takes in an envelope. -/
  | hear (envelope : Envelope)
  /-- It begins a turn. -/
  | begin (request : Turn.Request)
  /-- It ends a turn that asked `prompt`. -/
  | complete (prompt response : String)
  /-- Its turn fails, before or after the model was called. -/
  | fail (error : String)
  /-- The watchdog drops its turn. -/
  | reset
  /-- It is told that a child is gone. -/
  | miss (child : AgentId)
  /-- It reports the end of a task. -/
  | report (ending : Ending)
  /-- It goes on to another phase, passes on an effect, or does nothing. -/
  | other
  deriving DecidableEq, Repr

/-- How the answer to a call ends a turn: by a reply or by a failure. -/
def Engine.outcome : Except Model.Error String → Except String String
  | .ok text => .ok text
  | .error error =>
    if error.isProviderSignature then .ok (refusalReply error) else .error error.text

namespace Slot

/-- What the agent does by a step of its own. -/
def stride (e : Engine) (s : Slot) : Deed :=
  match s.phase with
  | .delivering => s.inbox.head?.elim .other .hear
  | .ready =>
    match Turn.begin e.project e.templates e.world.site s.agent with
    | .error unknown => .fail unknown.message
    | .ok none => .other
    | .ok (some (request, _)) => .begin request
  | .calling _ _ (some deadline) =>
    if e.closed || e.world.now < deadline then .other
    else
      match Watchdog.look e.project.config.watchdogInterval e.world.now s.agent with
      | .wait _ => .other
      | .reset => .reset
  | .applying (.delegate child _ :: _) _ => if e.accepts child then .other else .miss child
  | .applying (.finish ending :: _) _ =>
    if (e.docRequest? s.agent ending).isSome then .other else .report ending
  | .refreshing _ _ ending _ _ => if e.closed then .report ending else .other
  | _ => .other

/-- What the agent does when its call is answered. -/
def response (s : Slot) (reply : Except Model.Error String) : Deed :=
  match s.phase with
  | .calling _ prompt _ =>
    match Engine.outcome reply with
    | .ok text => .complete prompt text
    | .error text => .fail text
  | .refreshing _ _ ending _ _ => .report ending
  | _ => .other

end Slot

/-- **What a move has an agent do.** -/
def Engine.deed (e : Engine) (m : Move) (id : AgentId) : Deed :=
  match e.slot? id, m with
  | some s, .advance actor => if actor = id then s.stride e else .other
  | some s, .answer actor reply => if actor = id then s.response reply else .other
  | _, _ => .other

/-! ### Errands -/

/-- What the step of an agent does to others. -/
inductive Errand where
  | none
  | send (recipient : AgentId) (envelope : Envelope)
  | add (newcomer : Slot)
  | unlist (ids : List AgentId)
  /-- A run is given its result. -/
  | answer (report : Report)

/-- The engine after an errand. -/
def Errand.run (e : Engine) : Errand → Engine
  | .none => e
  | .send recipient envelope => e.send recipient envelope
  | .add newcomer => { e with slots := e.slots ++ [newcomer] }
  | .unlist ids => e.unlist ids
  | .answer report => e.answerRun report

/-- Puts a slot in the place of the one of the same agent. -/
def Engine.swap (e : Engine) (s : Slot) : Engine :=
  { e with slots := e.slots.map fun t => if t.id = s.id then s else t }

/-- The report on a task that has ended, if there was one. -/
def Ending.report? (ending : Ending) (s : Slot) : Option Report :=
  ending.task.map fun task => {
    sender := s.id
    senderName := s.agent.name
    recipient := ending.origin
    task := task
    success := ending.success
    payload := ending.payload }

/-- A report goes to its recipient, unless that is gone. -/
def Report.errand (e : Engine) (r : Report) : Errand :=
  match r.recipient with
  | some id => if e.accepts id then .send id (.report r) else .none
  | none => .answer r

/-- What reporting asks of others: nothing, or a report is sent to its recipient or answers a run. -/
theorem Report.errand_cases (e : Engine) (x : Option Report) :
    x.elim .none (Report.errand e) = .none ∨
      (∃ r id, x = some r ∧ r.recipient = some id ∧
        x.elim .none (Report.errand e) = .send id (.report r)) ∨
      ∃ r, x.elim .none (Report.errand e) = .answer r := by
  cases x with
  | none => exact Or.inl rfl
  | some r =>
    simp only [Option.elim_some, Report.errand]
    cases hrecipient : r.recipient with
    | none => exact Or.inr (Or.inr ⟨r, rfl⟩)
    | some id =>
      simp only
      split
      · exact Or.inr (Or.inl ⟨r, id, rfl, hrecipient, rfl⟩)
      · exact Or.inl rfl

/-! ### What a deed makes of a slot -/

/-- Nothing has happened to the agent yet. -/
structure Agent.Unused (a : Agent) : Prop where
  queue : a.queue = []
  stalled : a.stalled = false
  context : a.context = []
  task : a.task = none
  delegated : a.delegated = []
  helpers : a.helpers = []
  memory : a.memory = []
  origin : a.origin = none
  failures : a.failures = 0

theorem Agent.unused_fresh (id : AgentId) (kind : Kind) (name : String) (scope : Scope)
    (parent : Option AgentId) (now : Nat) : (fresh id kind name scope parent now).Unused :=
  ⟨rfl, rfl, rfl, rfl, rfl, rfl, rfl, rfl, rfl⟩

namespace Slot

/-- The slot of an agent that is added. -/
def newborn (a : Agent) (systemRole : Bool) (inbox : List Envelope) : Slot where
  agent := a
  systemRole := systemRole
  listed := true
  inbox := inbox
  phase := .waiting

/-- The slot of an agent that has reported; a helper leaves the list. -/
def concluded (s : Slot) (rest : List Effect) (retiring : Bool) : Slot :=
  { s with
    listed := s.listed && !s.agent.kind.isHelper
    phase := .applying rest (retiring || s.agent.kind.isHelper) }

/-- The agent is at a turn: about to begin it or waiting for its answer. -/
def AtTurn (s : Slot) : Prop :=
  s.phase = .ready ∨ ∃ call prompt deadline, s.phase = .calling call prompt deadline

/-- The agent of a failed turn. -/
def failed (s : Slot) : Agent :=
  { s.agent with stalled := false, failures := s.agent.failures + 1 }

end Slot

/-- The phases that an agent goes on to while nothing else of it changes. -/
inductive Passes (e : Engine) (s : Slot) : Phase → Prop where
  | stops (phase : s.phase = .waiting) (done : e.closed = true ∨ s.listed = false) :
      Passes e s .stopped
  | wakes (phase : s.phase = .waiting) (mail : s.inbox ≠ []) : Passes e s .delivering
  | rests (phase : s.phase = .delivering) (inbox : s.inbox = []) (queue : s.agent.queue = []) :
      Passes e s .waiting
  | readies (phase : s.phase = .delivering) (inbox : s.inbox = []) (queue : s.agent.queue ≠ []) :
      Passes e s .ready
  | idles (phase : s.phase = .ready) (queue : s.agent.queue = []) : Passes e s .waiting
  | cut {call : Call} {prompt : String} {deadline : Option Nat}
      (phase : s.phase = .calling call prompt deadline) (closed : e.closed = true) :
      Passes e s .stopped
  | postponed {call : Call} {prompt : String} {deadline later : Option Nat}
      (phase : s.phase = .calling call prompt deadline) : Passes e s (.calling call prompt later)
  | leaves (phase : s.phase = .applying [] true) : Passes e s .stopped
  | resumes (phase : s.phase = .applying [] false) : Passes e s .delivering
  | refreshes {ending : Ending} {rest : List Effect} {retiring : Bool} {call : Call} {doc : Path}
      (phase : s.phase = .applying (.finish ending :: rest) retiring)
      (notes : s.agent.docPath? e.project = some doc) :
      Passes e s (.refreshing call doc ending rest retiring)

/-- What giving up leaves of an agent: others still work for it and it waits, or its task has
ended. -/
inductive GivesUp (a : Agent) : Agent → Phase → Prop where
  | stuck {error : AgentError} (busy : a.busy? = some error) : GivesUp a a .waiting
  | ended (idle : a.busy? = none) (payload : String) : GivesUp a { a.retire with scratch := none }
      (.applying [.finish ⟨a.task, a.origin, false, payload⟩] false)

/-- **What an agent's step makes of its slot,** the errand that goes with it, and the next number. -/
inductive Acts (e : Engine) (s : Slot) : Deed → Slot → Errand → Nat → Prop where
  | passed {phase : Phase} (passes : Passes e s phase) :
      Acts e s .other { s with phase := phase } .none e.world.nextNumber
  | heard {envelope : Envelope} {rest : List Envelope} (phase : s.phase = .delivering)
      (inbox : s.inbox = envelope :: rest) :
      Acts e s (.hear envelope)
        { s with agent := s.agent.receive envelope e.world.now, inbox := rest } .none
        e.world.nextNumber
  | began {request : Turn.Request} {a : Agent} {call : Call} {deadline : Option Nat}
      (phase : s.phase = .ready)
      (begun : Turn.begin e.project e.templates e.world.site s.agent = .ok (some (request, a))) :
      Acts e s (.begin request)
        { s with agent := a, phase := .calling call request.prompt deadline } .none
        e.world.nextNumber
  | completed {call : Call} {prompt response : String} {deadline : Option Nat}
      {done : List Effect × Desk} (phase : s.phase = .calling call prompt deadline)
      (complete : Turn.complete e.project prompt response
        ⟨{ s.agent with failures := 0 }, e.world⟩ = done) :
      Acts e s (.complete prompt response)
        { s with agent := done.2.agent, phase := .applying done.1 false } .none
        done.2.world.nextNumber
  /-- A turn has failed, and not too many before it. -/
  | retried {error : String} (turn : s.AtTurn)
      (few : s.agent.failures + 1 < e.project.config.maxFailures) :
      Acts e s (.fail error)
        { s with agent := s.failed.enqueue ("ERROR: " ++ error), phase := .delivering } .none
        e.world.nextNumber
  /-- Too many turns have failed. -/
  | despaired {error : String} {a : Agent} {phase : Phase} (turn : s.AtTurn)
      (many : e.project.config.maxFailures ≤ s.agent.failures + 1)
      (gives : GivesUp { s.failed with queue := [] } a phase) :
      Acts e s (.fail error) { s with agent := a, phase := phase } .none e.world.nextNumber
  /-- The human goes on after a reset. -/
  | revived {call : Call} {prompt : String} {deadline : Option Nat}
      (phase : s.phase = .calling call prompt deadline) (text : String) (now : Nat) :
      Acts e s .reset
        { s with agent := ((Watchdog.reset s.agent).touch now).enqueue text, phase := .delivering }
        .none e.world.nextNumber
  | abandoned {call : Call} {prompt : String} {deadline : Option Nat} {a : Agent} {after : Phase}
      (phase : s.phase = .calling call prompt deadline)
      (gives : GivesUp (Watchdog.reset s.agent) a after) :
      Acts e s .reset { s with agent := a, phase := after } .none e.world.nextNumber
  | missed {child : AgentId} {task : Task} {rest : List Effect} {retiring : Bool}
      (phase : s.phase = .applying (.delegate child task :: rest) retiring)
      (gone : e.accepts child = false) :
      Acts e s (.miss child) (s.bereft child rest retiring) .none e.world.nextNumber
  | handed {child : AgentId} {task : Task} {rest : List Effect} {retiring : Bool}
      (phase : s.phase = .applying (.delegate child task :: rest) retiring)
      (accepts : e.accepts child = true) :
      Acts e s .other { s with phase := .applying rest retiring }
        (.send child (.task (some s.id) task)) e.world.nextNumber
  | started {helper : AgentId} {kind : Directive.HelperKind} {prompt name : String}
      {scratch : Scratch} {rest : List Effect} {retiring : Bool}
      (phase : s.phase = .applying (.spawn helper kind prompt scratch :: rest) retiring) :
      Acts e s .other { s with phase := .applying rest retiring }
        (.add (.newborn
          { Agent.fresh helper (.helper kind) name (.file scratch.path) (some s.id) e.world.now with
            scratch := some scratch }
          s.systemRole [.task (some s.id) ⟨⟨e.world.nextNumber⟩, prompt⟩]))
        (e.world.nextNumber + 1)
  | adopted {child : AgentId} {kind : Kind} {path : Path} {rest : List Effect} {retiring : Bool}
      (phase : s.phase = .applying (.adopt child kind path :: rest) retiring) :
      Acts e s .other { s with phase := .applying rest retiring }
        (.add (.newborn (Agent.fresh child kind (e.project.displayName path)
          (Roster.scopeOf kind path) (some s.id) e.world.now) s.systemRole []))
        e.world.nextNumber
  | released {child : AgentId} {ids : List AgentId} {rest : List Effect} {retiring : Bool}
      (phase : s.phase = .applying (.release child :: rest) retiring)
      (subtree : ids = (e.swap { s with phase := .applying rest retiring }).subtree
        e.slots.length child) :
      Acts e s .other { s with phase := .applying rest retiring } (.unlist ids)
        e.world.nextNumber
  | reported {ending : Ending} {rest : List Effect} {retiring : Bool}
      (phase : s.phase = .applying (.finish ending :: rest) retiring ∨
        ∃ call doc, s.phase = .refreshing call doc ending rest retiring) :
      Acts e s (.report ending) (s.concluded rest retiring)
        ((ending.report? s).elim .none (Report.errand (e.swap (s.concluded rest retiring))))
        e.world.nextNumber

/-- A turn that was completed has been entered in the books of its agent. -/
theorem booked_of_completed {e : Engine} {s : Slot} {prompt response : String}
    {done : List Effect × Desk}
    (complete : Turn.complete e.project prompt response
      ⟨{ s.agent with failures := 0 }, e.world⟩ = done) :
    Booked s.agent.books e.world.nextNumber done.2.agent.books done.2.world.nextNumber done.1 := by
  obtain rfl := complete
  exact complete_booked e.project prompt response ⟨{ s.agent with failures := 0 }, e.world⟩

/-- The end of a task that is being reported is the first effect left. -/
theorem Slot.pending_of_ending {s : Slot} {ending : Ending} {rest : List Effect} {retiring : Bool}
    (phase : s.phase = .applying (.finish ending :: rest) retiring ∨
      ∃ call doc, s.phase = .refreshing call doc ending rest retiring) :
    s.phase.pending = .finish ending :: rest := by
  rcases phase with phase | ⟨call, doc, phase⟩ <;> rw [phase] <;> rfl

/-- **What an agent's step makes of the files and of the scratch files in use.** They change when a
turn ends, when a task is given up, and when notes are refreshed. -/
def Slot.Leaves (e : Engine) (s s' : Slot) (site : Site) : Deed → Prop
  | .complete prompt response =>
    site = (complete e.project prompt response ⟨{ s.agent with failures := 0 }, e.world⟩).2.world.site
  | .fail _ | .reset =>
    site = if s'.phase.pending = [] then e.world.site else (releaseScratch s.agent e.world.site).2
  | .report ending =>
    site = e.world.site ∨ ∃ call doc rest retiring text files,
      s.phase = .refreshing call doc ending rest retiring ∧
      e.world.site.files.writeText doc text = .ok files ∧
      site = { e.world.site with files := files }
  | _ => site = e.world.site

/-- An agent takes a step. -/
inductive Acted (e : Engine) (s : Slot) (deed : Deed) (e' : Engine) : Prop where
  | intro {s' : Slot} {errand : Errand} (acts : Acts e s deed s' errand e'.world.nextNumber)
      (slots : e'.slots = (errand.run (e.swap s')).slots)
      (runs : e'.runs = (errand.run (e.swap s')).runs) (closed : e'.closed = e.closed)
      (awaited : e'.awaited = (errand.run (e.swap s')).awaited)
      (site : s.Leaves e s' e'.world.site deed)
      (frame : e'.project = e.project ∧ e'.root = e.root)

/-- **What a move makes of all slots.** -/
inductive Change (e : Engine) (m : Move) (e' : Engine) : Prop where
  /-- Nothing. -/
  | still (slots : e'.slots = e.slots) (idle : ∀ id, e.deed m id = .other)
      (number : e.world.nextNumber ≤ e'.world.nextNumber)
      (closed : m = .shutdown ∨ e'.closed = e.closed)
  /-- Something comes from outside. -/
  | posted {id : AgentId} {envelope : Envelope} (outside : m.actor? = none)
      (slots : e'.slots = (e.send id envelope).slots)
      (number : e'.world.nextNumber = e.world.nextNumber) (closed : e'.closed = e.closed)
      (source : (∃ text, envelope = .plain text) ∨ ∃ task, envelope = .task none task)
  /-- A master is put above the root. -/
  | crowned {root : Agent} {systemRole : Bool} (outside : m.actor? = none)
      (present : root.id ∈ e.ids) (number : e'.world.nextNumber = e.world.nextNumber + 1)
      (closed : e'.closed = e.closed)
      (slots : e'.slots =
        (e.modifyAgent e.root fun a => { a with parent := some ⟨e.world.nextNumber⟩ }).slots ++
          [.newborn (Engine.masterOf ⟨e.world.nextNumber⟩ root e.world.now) systemRole []])
      (named : root.id = e.root)
  /-- An agent takes a step. -/
  | acted {s : Slot} (mem : s ∈ e.slots) (actor : m.actor? = some s.id)
      (acted : Acted e s (e.deed m s.id) e')

end Arbor
