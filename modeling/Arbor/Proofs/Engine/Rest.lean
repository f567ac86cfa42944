import Arbor.Proofs.Roster
import Arbor.Proofs.Turn.Scratch

/-! # Agents at rest

What an agent keeps for its task, it keeps for that task only. An agent without a task that hears of
tasks alone is *at rest*: nothing of its earlier tasks is left, however they ended, and so every task
finds the same short-term state.

* `complete_rests`: a turn keeps the task, or ends it and leaves nothing of it.
* `Slot.Rests`: what holds of an agent without a task.
* `Slot.Rests.fares`: every move keeps this, unless an agent at rest takes in something else.
* `rests_between_tasks`: along every run. -/

namespace Arbor

open Directive Turn

/-! ### Short-term state -/

/-- What an agent keeps for the task it has. -/
structure ShortTerm where
  queue : List String
  context : List Exchange
  memory : Table Path
  origin : Option AgentId
  failures : Nat
  delegated : List (AgentId × String)
  helpers : List AgentId
  deriving DecidableEq

namespace ShortTerm

/-- Nothing is kept. -/
def none : ShortTerm := ⟨[], [], [], .none, 0, [], []⟩

/-- What there is of a task that was just taken on: who asked for it, and what. -/
def start (sender : Option AgentId) (task : Task) : ShortTerm :=
  { none with queue := [task.text], origin := sender }

end ShortTerm

/-- What the agent keeps for its task. -/
def Agent.shortTerm (a : Agent) : ShortTerm where
  queue := a.queue
  context := a.context
  memory := a.memory
  origin := a.origin
  failures := a.failures
  delegated := a.delegated
  helpers := a.helpers

theorem Agent.Unused.shortTerm {a : Agent} (h : a.Unused) : a.shortTerm = .none := by
  simp only [Agent.shortTerm, ShortTerm.none, h.queue, h.context, h.memory, h.origin, h.failures,
    h.delegated, h.helpers]

/-- Whoever ends its task keeps nothing but those at work for it. -/
theorem Agent.retire_shortTerm (a : Agent) :
    a.retire.shortTerm = { ShortTerm.none with delegated := a.delegated, helpers := a.helpers } :=
  rfl

theorem Agent.retire_rests {a : Agent} (idle : a.busy? = none) : a.retire.shortTerm = .none := by
  obtain ⟨hdelegated, hhelpers⟩ := busy?_eq_none idle
  rw [Agent.retire_shortTerm, hdelegated, hhelpers]
  rfl

/-! ### Turns -/

namespace Turn

variable {project : Project} {d d' : Desk}

theorem Unmoved.busy? (h : Unmoved d d') : d'.agent.busy? = d.agent.busy? := by
  obtain ⟨memory, now, ha⟩ := h.agent
  rw [ha]
  rfl

/-- **A directive keeps the task,** or ends it and leaves nothing of it. -/
theorem perform_rests {k : Dialect} (project : Project) (x : Directive k) (d : Desk) :
    ((perform project x).run d).2.agent.task = d.agent.task ∨
    ((perform project x).run d).2.agent.task = none ∧
      ((perform project x).run d).2.agent.shortTerm = .none ∧
      ∃ ending, effectsOf ((perform project x).run d).1 = [.finish ending] := by
  have h := perform_performed project x d
  generalize ((perform project x).run d : Except AgentError Step × Desk) = out at h ⊢
  cases h with
  | quiet still silent => exact Or.inl (congrArg Books.task still.books)
  | wrote own write => exact Or.inl rfl
  | created target creation => cases creation <;> exact Or.inl rfl
  | deleted target deletion => cases deletion <;> exact Or.inl rfl
  | spawned still notHelper spawning verb =>
    obtain ⟨n, hbooks, -⟩ := spawning_books spawning
    exact Or.inl ((congrArg Books.task hbooks).trans (congrArg Books.task still.books))
  | @handed orders d' note still children =>
    have hbooks := (handedOut_books orders d').1
    rw [Books.handAll_eq] at hbooks
    exact Or.inl ((congrArg Books.task hbooks).trans (congrArg Books.task still.books))
  | finished idle =>
    refine Or.inr ⟨?_, ?_, _, rfl⟩
    · rw [released_agent]
      rfl
    · rw [released_agent]
      exact Agent.retire_rests idle
  | ended still idle master => exact Or.inr ⟨rfl, Agent.retire_rests (still.busy?.trans idle), _, rfl⟩

/-- **A turn keeps the task,** or ends it and leaves nothing of it. -/
theorem complete_rests (project : Project) (prompt response : String) (d : Desk) :
    (complete project prompt response d).2.agent.task = d.agent.task ∨
    (complete project prompt response d).2.agent.task = none ∧
      (complete project prompt response d).2.agent.shortTerm = .none ∧
      ∃ ending, (complete project prompt response d).1 = [.finish ending] := by
  have talk := complete_talk project prompt response d
  rcases complete_cases project prompt response d with ⟨queue, h⟩ | ⟨x, out, queue, -, rfl, h⟩
  · rw [h]
    exact Or.inl rfl
  · rw [h] at talk ⊢
    rcases perform_rests project x (recorded prompt response d) with task | ⟨task, rests, ending, he⟩
    · exact Or.inl task
    · refine Or.inr ⟨task, ?_, ending, he⟩
      -- the queue is set behind the directive, which has nothing to say
      rcases talk with ⟨unfinished, -⟩ | ⟨-, talk⟩
      · rw [he] at unfinished
        cases unfinished
      · have hqueue : queue = [] := congrArg Prod.fst talk
        rw [hqueue]
        simp only [Agent.shortTerm, ShortTerm.none, ShortTerm.mk.injEq] at rests ⊢
        exact ⟨trivial, rests.2⟩

end Turn

/-! ### Envelopes -/

/-- The deed takes in an envelope that carries no task. -/
def Deed.strays : Deed → Bool
  | .hear (.plain _) => true
  | .hear (.report _) => true
  | _ => false

/-- A move has an agent without a task take in an envelope that carries none. -/
def Engine.strays (id : AgentId) (e : Engine) (m : Move) : Bool :=
  (e.slot? id).any fun s => !s.agent.isActive && (e.deed m id).strays

/-- **Whoever is at rest finds nothing but the task** that it takes on. -/
theorem Agent.receive_task_rests {a : Agent} (idle : a.task = none) (rests : a.shortTerm = .none)
    (sender : Option AgentId) (task : Task) (now : Nat) :
    (a.receive (.task sender task) now).shortTerm = .start sender task ∧
      (a.receive (.task sender task) now).task = some task := by
  have hidle : ∀ later, ¬ ({ a with lastActivity := later } : Agent).isActive = true := fun later => by
    simp [Agent.isActive, idle]
  obtain ⟨later, hnoted⟩ := a.noted_eq now
  simp only [Agent.shortTerm, ShortTerm.none, ShortTerm.mk.injEq] at rests
  obtain ⟨hqueue, hcontext, hmemory, -, -, hdelegated, hhelpers⟩ := rests
  simp only [Agent.receive, hnoted, Agent.takeTask, if_neg (hidle later)]
  simp [Agent.shortTerm, ShortTerm.start, ShortTerm.none, Agent.activate, Agent.enqueue, hqueue,
    hcontext, hmemory, hdelegated, hhelpers]

/-- Only an envelope without a task leaves an agent without one. -/
theorem Agent.receive_idle (a : Agent) (envelope : Envelope) (now : Nat)
    (idle : (a.receive envelope now).task = none) : a.task = none ∧
      ∀ sender task, envelope ≠ .task sender task := by
  have hbooks : (a.receive envelope now).task = (a.books.receive envelope).task :=
    congrArg Books.task (a.books_receive envelope now)
  rw [hbooks] at idle
  rcases a.books.receive_task_cases envelope with ⟨htask, -, -, other⟩ | ⟨-, sender, task, -, taken⟩
  · have hnone : a.task = none := htask.symm.trans idle
    exact ⟨hnone, other hnone⟩
  · rw [taken] at idle
    cases idle

/-! ### Slots at rest -/

variable {e : Engine} {m : Move} {s s' : Slot}

/-- **At rest** an agent keeps nothing, has no turn in flight, and hands on no task. -/
structure Slot.AtRest (s : Slot) : Prop where
  nothing : s.agent.shortTerm = .none
  landed : s.agent.stalled = false
  turnless : ¬ s.AtTurn
  taskless : ∀ child task, .delegate child task ∉ s.phase.pending

/-- The agent is at rest unless it has a task. -/
def Slot.Rests (s : Slot) : Prop := s.agent.task = none → s.AtRest

theorem not_atTurn_of_pending {s : Slot} (pending : s.phase.pending ≠ []) : ¬ s.AtTurn := by
  rintro (h | ⟨call, prompt, deadline, h⟩) <;> exact pending (by rw [h]; rfl)

namespace Slot.Rests

theorem keeps (h : s.Rests) (keeps : s.Keeps s') : s'.Rests := by
  obtain ⟨parent, ha⟩ := keeps.agent
  intro idle
  rw [ha] at idle
  obtain ⟨nothing, landed, turnless, taskless⟩ := h idle
  refine ⟨?_, ?_, ?_, ?_⟩
  · rw [ha]
    exact nothing
  · rw [ha]
    exact landed
  · unfold Slot.AtTurn at turnless ⊢
    rwa [keeps.phase]
  · rwa [keeps.phase]

theorem newborn (h : s.IsNewborn) : s.Rests := by
  intro _
  refine ⟨h.unused.shortTerm, h.unused.stalled, ?_, fun child task hm => ?_⟩
  · rintro (phase | ⟨call, prompt, deadline, phase⟩) <;> cases h.phase.symm.trans phase
  · rw [h.phase] at hm
    cases hm

/-- Whoever is at a turn has a task. -/
theorem active_of_atTurn (h : s.Rests) (turn : s.AtTurn) : s.agent.task ≠ none :=
  fun idle => (h idle).turnless turn

/-- Whoever hands on a task has one. -/
theorem active_of_delegate (h : s.Rests) {child : AgentId} {task : Task}
    (hm : .delegate child task ∈ s.phase.pending) : s.agent.task ≠ none :=
  fun idle => (h idle).taskless child task hm

/-- Going on to another phase. -/
theorem passes {phase : Phase} (h : s.Rests) (passes : Passes e s phase) :
    Slot.Rests { s with phase := phase } := by
  intro idle
  obtain ⟨nothing, landed, turnless, taskless⟩ := h idle
  refine ⟨nothing, landed, ?_, fun child task hm => ?_⟩
  · intro turn
    cases passes with
    | readies phase inbox queue => exact queue (congrArg ShortTerm.queue nothing)
    | postponed phase => exact turnless (Or.inr ⟨_, _, _, phase⟩)
    | _ => rcases turn with turn | ⟨call, prompt, deadline, turn⟩ <;> cases turn
  · cases passes with
    | refreshes phase notes =>
      refine taskless child task ?_
      rw [phase]
      exact hm
    | _ => cases hm

/-- Giving up keeps the task, or ends it and leaves nothing of it. -/
theorem gives {a a' : Agent} {phase : Phase} (active : a.task ≠ none) (landed : a.stalled = false)
    (given : GivesUp a a' phase) : Slot.Rests { s with agent := a', phase := phase } := by
  intro idle
  cases given with
  | stuck busy => exact absurd idle active
  | ended free payload =>
    refine ⟨Agent.retire_rests free, landed, not_atTurn_of_pending (by simp [Phase.pending]), ?_⟩
    intro child task hm
    cases List.mem_singleton.mp hm

/-- Striking off an effect. -/
theorem strike {effect : Effect} {rest : List Effect} {retiring : Bool} (h : s.Rests)
    (pending : s.phase.pending = effect :: rest) (listed : Bool) :
    Slot.Rests { s with listed := listed, phase := .applying rest retiring } := by
  intro idle
  obtain ⟨nothing, landed, -, taskless⟩ := h idle
  refine ⟨nothing, landed, ?_, fun child task hm => taskless child task ?_⟩
  · rintro (turn | ⟨call, prompt, deadline, turn⟩) <;> cases turn
  · rw [pending]
    exact List.mem_cons_of_mem _ hm

/-- **An agent's own step.** -/
theorem acts {deed : Deed} {errand : Errand} {n : Nat} (h : s.Rests)
    (straight : s.agent.task = none → deed.strays = false) (acts : Acts e s deed s' errand n) :
    s'.Rests := by
  cases acts with
  | passed passes => exact h.passes passes
  | @heard envelope rest phase inbox =>
    intro idle
    obtain ⟨hidle, notTask⟩ := s.agent.receive_idle envelope e.world.now idle
    have hstraight := straight hidle
    cases envelope with
    | task sender task => exact absurd rfl (notTask sender task)
    | plain text => cases hstraight
    | report r => cases hstraight
  | began phase begun =>
    obtain ⟨-, -, rfl⟩ := begin_eq_some begun
    exact fun idle => absurd idle (h.active_of_atTurn (Or.inl phase))
  | @completed call prompt response deadline done phase complete =>
    obtain rfl := complete
    have active := h.active_of_atTurn (Or.inr ⟨_, _, _, phase⟩)
    intro idle
    rcases complete_rests e.project prompt response ⟨{ s.agent with failures := 0 }, e.world⟩ with
      task | ⟨-, nothing, ending, heffects⟩
    · exact absurd (task.symm.trans idle) active
    · refine ⟨nothing, rfl, ?_, fun child task hm => ?_⟩
      · rintro (turn | ⟨call, prompt, deadline, turn⟩) <;> cases turn
      · simp only [Phase.pending, heffects] at hm
        cases List.mem_singleton.mp hm
  | retried turn few => exact fun idle => absurd idle (h.active_of_atTurn turn)
  | despaired turn many given => exact gives (s := s) (a := { s.failed with queue := [] }) (h.active_of_atTurn turn) rfl given
  | revived phase text now =>
    exact fun idle => absurd idle (h.active_of_atTurn (Or.inr ⟨_, _, _, phase⟩))
  | abandoned phase given =>
    exact gives (a := Watchdog.reset s.agent) (h.active_of_atTurn (Or.inr ⟨_, _, _, phase⟩)) rfl given
  | @missed child task rest retiring phase gone =>
    have hm : .delegate child task ∈ s.phase.pending := by
      rw [phase]
      exact List.mem_cons_self
    exact fun idle => absurd idle (h.active_of_delegate hm)
  | handed phase accepts => exact h.strike (by rw [phase]; rfl) s.listed
  | started phase => exact h.strike (by rw [phase]; rfl) s.listed
  | adopted phase => exact h.strike (by rw [phase]; rfl) s.listed
  | released phase subtree => exact h.strike (by rw [phase]; rfl) s.listed
  | reported phase => exact h.strike (Slot.pending_of_ending phase) _

/-- **Every move keeps this,** unless an agent at rest takes in an envelope without a task. -/
theorem fares (h : s.Rests) (straight : s.agent.task = none → (e.deed m s.id).strays = false)
    (fares : s.Fares e m s') : s'.Rests := by
  cases fares with
  | idle deed keeps => exact h.keeps keeps
  | acts acts keeps => exact (h.acts straight acts).keeps keeps

end Slot.Rests

/-! ### Runs -/

/-- Along every run. -/
theorem Launched.rests (launched : Launched e) {id : AgentId} {moves : List Move}
    (straight : ∀ stray ∈ e.trace (Engine.strays id) moves, stray = false)
    (hs : s ∈ (e.follow moves).slots) (hid : s.id = id) : s.Rests := by
  have o := launched.orderly
  refine launched.slots_follow (P := fun ran s => s.id = id →
    (∀ stray ∈ e.trace (Engine.strays id) ran, stray = false) → s.Rests)
    ?new ?step moves s hs hid straight
  case new => exact fun ran s idle newborn _ _ => .newborn newborn
  case step =>
    intro ran m s hs s' fares ih hid straight
    have hid' : s.id = id := fares.id_eq.symm.trans hid
    rw [Engine.trace_concat] at straight
    have before := ih hid' fun stray hm => straight stray (List.mem_append_left _ hm)
    have last := straight _ (List.mem_append_right _ (List.mem_singleton.mpr rfl))
    refine before.fares (fun idle => ?_) fares
    rw [Engine.strays, ← hid', Engine.slot?_of_mem (o.follow ran).distinct hs, Option.any_some,
      Agent.isActive, idle] at last
    simpa using last

/-- An agent at rest that takes on a task has nothing else. -/
theorem Slot.AtRest.takes (h : s.AtRest) (idle : s.agent.task = none) (fares : s.Fares e m s')
    {sender : Option AgentId} {task : Task} (heard : e.deed m s.id = .hear (.task sender task)) :
    s'.agent.task = some task ∧ s'.agent.shortTerm = .start sender task := by
  cases fares with
  | idle deed keeps => cases deed.symm.trans heard
  | @acts mid errand n acts keeps =>
    rw [heard] at acts
    obtain ⟨parent, ha⟩ := keeps.agent
    rw [ha]
    cases acts with
    | heard phase inbox =>
      obtain ⟨hstart, htask⟩ :=
        Agent.receive_task_rests idle h.nothing sender task e.world.now
      exact ⟨htask, hstart⟩

/-- **Short-term state lives for one task.** Along every run in which an agent without a task takes
in nothing but tasks, it keeps nothing whenever it has no task, and whatever task it takes on next
finds the same: its own text on the queue, whoever asked for it, and nothing else. -/
theorem rests_between_tasks (launched : Launched e) (id : AgentId) {moves : List Move}
    (straight : ∀ stray ∈ e.trace (Engine.strays id) moves, stray = false) :
    ∀ s ∈ (e.follow moves).slots, s.id = id → s.agent.task = none →
      s.agent.shortTerm = .none ∧ s.agent.stalled = false ∧
      ∀ m sender task, (e.follow moves).deed m id = .hear (.task sender task) →
        ∀ s' ∈ (e.follow (moves ++ [m])).slots, s'.id = id →
          s'.agent.task = some task ∧ s'.agent.shortTerm = .start sender task := by
  intro s hs hid idle
  have rest := launched.rests straight hs hid idle
  refine ⟨rest.nothing, rest.landed, fun m sender task heard s' hs' hid' => ?_⟩
  have o := launched.orderly.follow moves
  rw [Engine.follow_concat] at hs'
  rcases o.fares m hs' with ⟨t, ht, fares⟩ | ⟨new, -⟩
  · obtain rfl := Engine.eq_of_id_eq o.distinct hs ht (fares.id_eq.symm.trans (hid'.trans hid.symm))
    exact rest.takes idle fares (hid ▸ heard)
  · rw [hid', ← hid] at new
    exact absurd (List.mem_map_of_mem hs) new

/-- The coder is given a task, looks at its file, ends the task, and is given another. -/
def shedTwice : List Move :=
  [Move.enterRun ⟨1⟩ "one", .admitRun 0, .registerRun 0, .dispatchRun 0] ++
  List.replicate 4 (Move.advance ⟨1⟩) ++ [Move.answer ⟨1⟩ (.ok "READ FILE \"a\"")] ++
  List.replicate 3 (Move.advance ⟨1⟩) ++ [Move.answer ⟨1⟩ (.ok "FINISH PROMPT=\"done\"")] ++
  List.replicate 3 (Move.advance ⟨1⟩) ++
  [Move.enterRun ⟨1⟩ "two", .admitRun 1, .registerRun 1, .dispatchRun 1, .advance ⟨1⟩]

/-- Nothing is left of the first task when it takes on the second. -/
theorem rests_between_tasks_shed : Launched shedStart ∧
    (∀ stray ∈ shedStart.trace (Engine.strays ⟨1⟩) shedTwice, stray = false) ∧
    ∃ s ∈ (shedStart.follow (shedTwice ++ [.advance ⟨1⟩])).slots, s.id = ⟨1⟩ ∧
      s.agent.shortTerm = .start none ⟨⟨3⟩, "two"⟩ := by
  have straight : ∀ stray ∈ shedStart.trace (Engine.strays ⟨1⟩) shedTwice, stray = false := by
    decide +kernel
  have before : ∃ s ∈ (shedStart.follow shedTwice).slots, s.id = ⟨1⟩ ∧ s.agent.task = none ∧
      (shedStart.follow shedTwice).deed (.advance ⟨1⟩) ⟨1⟩ =
        .hear (.task none ⟨⟨3⟩, "two"⟩) := by decide +kernel
  obtain ⟨s, hs, hid, idle, heard⟩ := before
  have after : ∃ s ∈ (shedStart.follow (shedTwice ++ [.advance ⟨1⟩])).slots, s.id = ⟨1⟩ := by
    decide +kernel
  obtain ⟨s', hs', hid'⟩ := after
  obtain ⟨-, -, starts⟩ := rests_between_tasks shed_launched ⟨1⟩ straight s hs hid idle
  exact ⟨shed_launched, straight, s', hs', hid', (starts _ _ _ heard s' hs' hid').2⟩

end Arbor
