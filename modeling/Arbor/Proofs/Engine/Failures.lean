import Arbor.Proofs.Engine.Lifecycle
import Arbor.Proofs.Turn.Refusal

/-! # Failures in a row

An agent counts the turns that fail. The count starts anew with every task that it takes on and with
every turn that ends in a reply, also in one that stands in for a reply that the provider refused. So
it is the number of failures in a row, and as soon as there are too many of them the agent gives up its
task, unless others still work for it.

* `Tick`, `inARow`: what a move means for the number of failures in a row.
* `Launched.counts_failures`: as long as it has a task, an agent's count is that number.
* `Acts.failed`: what a failed turn makes of the agent and the files.
* `gives_up_on_time`: an agent gives up exactly when it has failed too often in a row. -/

namespace Arbor

open Turn

variable {e : Engine} {m : Move} {s s' mid : Slot} {deed : Deed} {errand : Errand} {n : Nat}
  {error : String}

/-! ### The number of failures in a row -/

/-- What a move means for the number of failures in a row. -/
inductive Tick where
  | nothing
  | failure
  /-- A task is taken on, or a turn ends in a reply. -/
  | fresh
  deriving DecidableEq, Repr

/-- The number of failures since the last fresh start. -/
def inARow (ticks : List Tick) : Nat := (ticks.reverse.takeWhile (· != .fresh)).count .failure

/-- What a deed means for it. -/
def Slot.tick (s : Slot) : Deed → Tick
  | .fail _ => .failure
  | .complete _ _ => .fresh
  | .hear (.task _ _) => if s.agent.isActive then .nothing else .fresh
  | _ => .nothing

/-- **What a move means for the number of failures in a row** of an agent. -/
def Engine.tick (id : AgentId) (e : Engine) (m : Move) : Tick :=
  (e.slot? id).elim .nothing fun s => s.tick (e.deed m id)

/-- How many turns in a row have to fail until the agent gives up; no fewer than one. -/
def Engine.limit (e : Engine) : Nat := max 1 e.project.config.maxFailures

/-- The number after one more move. -/
def Tick.count (before : Nat) : Tick → Nat
  | .nothing => before
  | .failure => before + 1
  | .fresh => 0

theorem inARow_concat (ticks : List Tick) (tick : Tick) :
    inARow (ticks ++ [tick]) = tick.count (inARow ticks) := by
  unfold inARow
  rw [List.reverse_append, List.reverse_singleton, List.singleton_append, List.takeWhile_cons]
  cases tick with
  | nothing => simp [Tick.count]
  | failure => simp [Tick.count]
  | fresh => simp [Tick.count]

theorem Engine.tick_of_mem (distinct : e.ids.Nodup) (hs : s ∈ e.slots) :
    e.tick s.id m = s.tick (e.deed m s.id) := by
  rw [Engine.tick, Engine.slot?_of_mem distinct hs, Option.elim_some]

/-! ### What is counted -/

theorem Turn.Unmoved.failures {d d' : Desk} (h : Unmoved d d') :
    d'.agent.failures = d.agent.failures := by
  obtain ⟨memory, now, ha⟩ := h.agent
  rw [ha]

/-- No directive raises the count. -/
theorem Turn.perform_failures {k : Directive.Dialect} (project : Project) (x : Directive k) {d : Desk}
    (none : d.agent.failures = 0) : ((perform project x).run d).2.agent.failures = 0 := by
  have h := perform_performed project x d
  generalize ((perform project x).run d : Except AgentError Step × Desk) = out at h ⊢
  cases h with
  | quiet still silent => exact still.failures.trans none
  | wrote own write => exact none
  | created target creation => cases creation <;> exact none
  | deleted target deletion => cases deletion <;> exact none
  | spawned still notHelper spawning verb =>
    obtain ⟨own, helpers, ha⟩ := spawning.agent
    simp only at ha ⊢
    rw [ha]
    exact still.failures.trans none
  | @handed orders d' note still children =>
    obtain ⟨delegated, ha⟩ := handedOut_delegated orders d'
    simp only
    rw [ha]
    exact still.failures.trans none
  | finished idle =>
    simp only [released_agent]
    rfl
  | ended still idle master => rfl

theorem Turn.complete_failures (project : Project) (prompt response : String) {d : Desk}
    (none : d.agent.failures = 0) : (complete project prompt response d).2.agent.failures = 0 := by
  rcases complete_cases project prompt response d with ⟨queue, h⟩ | ⟨x, out, queue, -, rfl, h⟩
  · rw [h]
    exact none
  · rw [h]
    exact perform_failures project x none

/-- A task that is taken on starts the count anew; no other envelope changes it. -/
theorem Slot.receive_counts (s : Slot) (envelope : Envelope) (now : Nat) :
    ((s.agent.receive envelope now).isActive = true →
        s.tick (.hear envelope) ≠ .fresh → s.agent.isActive = true) ∧
      (s.agent.receive envelope now).failures =
        (s.tick (.hear envelope)).count s.agent.failures := by
  obtain ⟨later, hnoted⟩ := s.agent.noted_eq now
  unfold Agent.receive
  simp only [hnoted]
  cases envelope with
  | plain text => exact ⟨fun active _ => active, rfl⟩
  | report r =>
    simp only [Agent.takeReport, Agent.dismiss]
    split_ifs <;> exact ⟨fun active _ => active, rfl⟩
  | task sender task =>
    simp only [Agent.takeTask, Slot.tick]
    cases active : s.agent.isActive with
    | true =>
      rw [if_pos (show ({ s.agent with lastActivity := later } : Agent).isActive = true from active)]
      exact ⟨fun _ _ => rfl, rfl⟩
    | false =>
      rw [if_neg (show ¬ ({ s.agent with lastActivity := later } : Agent).isActive = true by
        simpa [Agent.isActive] using active)]
      exact ⟨fun _ stale => absurd rfl stale, rfl⟩

/-- **The count over a step** that leaves the agent with a task. -/
theorem Acts.counts (h : Acts e s deed mid errand n) (active : mid.agent.isActive = true) :
    (s.tick deed ≠ .fresh → s.agent.isActive = true) ∧
      mid.agent.failures = (s.tick deed).count s.agent.failures := by
  have gives : ∀ {a a' : Agent} {phase : Phase}, GivesUp a a' phase →
      a'.isActive = true → a' = a := by
    intro a a' phase gives active
    cases gives with
    | stuck busy => rfl
    | ended idle payload => cases active
  cases h with
  | heard phase inbox =>
    obtain ⟨busy, count⟩ := s.receive_counts _ e.world.now
    exact ⟨busy active, count⟩
  | began phase begun =>
    obtain ⟨-, -, rfl⟩ := begin_eq_some begun
    exact ⟨fun _ => active, rfl⟩
  | @completed call prompt response deadline done phase complete =>
    obtain rfl := complete
    exact ⟨fun stale => absurd rfl stale, complete_failures e.project prompt response rfl⟩
  | despaired turn many given =>
    obtain rfl := gives given active
    exact ⟨fun _ => active, rfl⟩
  | abandoned phase given =>
    obtain rfl := gives given active
    exact ⟨fun _ => active, rfl⟩
  | _ => exact ⟨fun _ => active, rfl⟩

/-- **As long as it has a task, an agent's count** is the number of failures in a row. -/
theorem Launched.counts_failures (launched : Launched e) (moves : List Move)
    (hs : s ∈ (e.follow moves).slots) (active : s.agent.isActive = true) :
    s.agent.failures = inARow (e.trace (Engine.tick s.id) moves) := by
  refine launched.slots_follow (P := fun ran s => s.agent.isActive = true →
    s.agent.failures = inARow (e.trace (Engine.tick s.id) ran)) ?new ?step moves s hs active
  case new =>
    intro ran s idle newborn active
    rw [Agent.isActive, newborn.unused.task] at active
    cases active
  case step =>
    intro ran m s hs s' fares ih active
    rw [fares.id_eq, Engine.trace_concat, inARow_concat,
      Engine.tick_of_mem (launched.orderly.follow ran).distinct hs]
    cases fares with
    | idle deed keeps =>
      obtain ⟨parent, ha⟩ := keeps.agent
      rw [ha] at active ⊢
      rw [deed]
      exact ih active
    | @acts mid errand n acts keeps =>
      obtain ⟨parent, ha⟩ := keeps.agent
      rw [ha] at active ⊢
      obtain ⟨busy, count⟩ := acts.counts active
      refine count.trans ?_
      cases htick : s.tick ((e.follow ran).deed m s.id) with
      | fresh => rfl
      | nothing => rw [ih (busy (by rw [htick]; decide))]
      | failure => rw [ih (busy (by rw [htick]; decide))]

/-! ### Failed turns -/

theorem Agent.busy?_of_idle {a : Agent} (idle : a.hasActiveWork = false) : a.busy? = none := by
  by_contra held
  rw [hasActiveWork_iff.mpr held] at idle
  cases idle

/-- The agent tries again: it is told of the failure, and keeps everything that it has to do. -/
structure Slot.TriesAgain (s s' : Slot) (error : String) : Prop where
  task : s'.agent.task = s.agent.task
  origin : s'.agent.origin = s.agent.origin
  queue : s'.agent.queue = s.agent.queue ++ ["ERROR: " ++ error]
  pending : s'.phase.pending = []

/-- **The agent gives up:** its task ends, and it reports once that the task has failed. -/
structure Slot.GaveUp (s s' : Slot) : Prop where
  task : s'.agent.task = none
  queue : s'.agent.queue = []
  scratch : s'.agent.scratch = none
  report : ∃ payload, s'.phase.pending = [.finish ⟨s.agent.task, s.agent.origin, false, payload⟩]

/-- The agent cannot give up: it keeps its task and reports nothing. -/
structure Slot.Stuck (s s' : Slot) : Prop where
  task : s'.agent.task = s.agent.task
  origin : s'.agent.origin = s.agent.origin
  queue : s'.agent.queue = []
  pending : s'.phase.pending = []

/-- **What a failed turn makes of the agent and the files.** -/
structure Slot.Fails (s s' : Slot) (error : String) (count limit : Nat) (site site' : Site) : Prop where
  few : count < limit → s.TriesAgain s' error ∧ site' = site
  idle : limit ≤ count → s.agent.hasActiveWork = false → s.GaveUp s' ∧ s.LetsGo site site'
  busy : limit ≤ count → s.agent.hasActiveWork = true → s.Stuck s' ∧ site' = site

theorem Acts.failed (h : Acts e s (.fail error) mid errand n) {site : Site}
    (leaves : s.Leaves e mid site (.fail error)) :
    s.Fails mid error (s.agent.failures + 1) e.limit e.world.site site := by
  have limit : ∀ count, count + 1 < e.limit ↔ count + 1 < e.project.config.maxFailures := by
    intro count
    unfold Engine.limit
    omega
  cases h with
  | retried turn few =>
    refine ⟨fun _ => ⟨⟨rfl, rfl, rfl, rfl⟩, leaves⟩, fun many => ?_, fun many => ?_⟩
    all_goals exact absurd ((limit _).mpr few) (Nat.not_lt.mpr many)
  | @despaired _ a phase turn many given =>
    have hbusy : ({ s.failed with queue := [] } : Agent).busy? = s.agent.busy? := rfl
    refine ⟨fun few => absurd ((limit _).mp few) (Nat.not_lt.mpr many), fun _ idle => ?_,
      fun _ busy => ?_⟩
    · cases given with
      | stuck held => cases (Agent.busy?_of_idle idle).symm.trans (hbusy.symm.trans held)
      | ended free payload =>
        have hsite : site = (releaseScratch s.agent e.world.site).2 :=
          leaves.trans (if_neg (by simp))
        rw [hsite]
        exact ⟨⟨rfl, rfl, rfl, payload, rfl⟩, s.letsGo_released e.world.site⟩
    · cases given with
      | stuck held => exact ⟨⟨rfl, rfl, rfl, rfl⟩, leaves.trans (if_pos rfl)⟩
      | ended free payload => exact absurd (hbusy ▸ free) (hasActiveWork_iff.mp busy)

theorem Slot.Touched.keeps (h : mid.Touched e m e' s') : mid.Keeps s' := by
  cases h with
  | left => exact .refl _
  | sent report => exact ⟨⟨_, rfl⟩, rfl, ⟨_, rfl⟩, fun h => h⟩
  | unlisted mem phase subtree below all => exact ⟨⟨_, rfl⟩, rfl, ⟨[], by simp⟩, fun h => by cases h⟩
  | crowned root => exact ⟨⟨_, rfl⟩, rfl, ⟨[], by simp⟩, fun h => h⟩

theorem Slot.Fails.keeps {count limit : Nat} {site site' : Site}
    (h : s.Fails mid error count limit site site') (keeps : mid.Keeps s') :
    s.Fails s' error count limit site site' := by
  obtain ⟨parent, ha⟩ := keeps.agent
  obtain ⟨few, idle, busy⟩ := h
  refine ⟨fun hfew => ?_, fun many free => ?_, fun many held => ?_⟩
  · obtain ⟨⟨task, origin, queue, pending⟩, site⟩ := few hfew
    exact ⟨⟨by rw [ha]; exact task, by rw [ha]; exact origin, by rw [ha]; exact queue,
      by rw [keeps.phase]; exact pending⟩, site⟩
  · obtain ⟨⟨task, queue, scratch, report⟩, site⟩ := idle many free
    exact ⟨⟨by rw [ha]; exact task, by rw [ha]; exact queue, by rw [ha]; exact scratch,
      by rw [keeps.phase]; exact report⟩, site⟩
  · obtain ⟨⟨task, origin, queue, pending⟩, site⟩ := busy many held
    exact ⟨⟨by rw [ha]; exact task, by rw [ha]; exact origin, by rw [ha]; exact queue,
      by rw [keeps.phase]; exact pending⟩, site⟩

/-- What a failed turn makes of the slot of an agent. -/
theorem Orderly.failed (o : Orderly e) (hs : s ∈ e.slots) (fails : e.deed m s.id = .fail error) :
    ∃ s' ∈ (e.step m).slots, s'.id = s.id ∧
      s.Fails s' error (s.agent.failures + 1) e.limit e.world.site (e.step m).world.site := by
  obtain ⟨s', hs', hid⟩ := List.mem_map.mp (o.mem_ids_step (m := m) (List.mem_map_of_mem hs))
  obtain ⟨mid, hown, touched⟩ := o.touched hs hs' hid
  refine ⟨s', hs', hid, ?_⟩
  rcases hown with ⟨-, other⟩ | ⟨errand, n, acts, leaves⟩
  · cases fails.symm.trans other
  · rw [fails] at acts leaves
    exact (acts.failed leaves).keeps touched.keeps

/-! ### Runs in which nobody works for the agent -/

/-- A step of an agent for which nobody works leaves it below the limit, or without its task. -/
theorem Acts.below (h : Acts e s deed mid errand n) (idle : s.agent.hasActiveWork = false)
    (before : s.agent.isActive = true → s.agent.failures < e.limit)
    (active : mid.agent.isActive = true) : mid.agent.failures < e.limit := by
  have positive : 0 < e.limit := Nat.lt_of_lt_of_le Nat.one_pos (Nat.le_max_left _ _)
  obtain ⟨busy, count⟩ := h.counts active
  cases htick : s.tick deed with
  | fresh =>
    rw [count, htick]
    exact positive
  | nothing =>
    rw [count, htick]
    exact before (busy (by rw [htick]; decide))
  | failure =>
    cases h with
    | retried turn few => exact Nat.lt_of_lt_of_le few (Nat.le_max_right _ _)
    | despaired turn many given =>
      cases given with
      | stuck held => cases (Agent.busy?_of_idle idle).symm.trans held
      | ended free payload => cases active
    | @heard envelope rest phase inbox =>
      cases envelope with
      | task sender task =>
        simp only [Slot.tick] at htick
        split_ifs at htick
      | _ => cases htick
    | _ => cases htick

/-- Over a part of a run nobody works for an agent. -/
def Engine.Unaided (e : Engine) (id : AgentId) (moves : List Move) : Prop :=
  ∀ ran, ran <+: moves → ∀ t ∈ (e.follow ran).slots, t.id = id → t.agent.hasActiveWork = false

/-- **With nobody at work for it, an agent that has a task is below the limit.** -/
theorem Launched.below_limit (launched : Launched e) {id : AgentId} {before since : List Move}
    (start : inARow (e.trace (Engine.tick id) before) = 0)
    (unaided : (e.follow before).Unaided id since) :
    ∀ s ∈ (e.follow (before ++ since)).slots, s.id = id → s.agent.isActive = true →
      s.agent.failures < e.limit := by
  induction since using List.reverseRecOn with
  | nil =>
    intro s hs hid active
    rw [List.append_nil] at hs
    rw [launched.counts_failures before hs active, hid, start]
    exact Nat.lt_of_lt_of_le Nat.one_pos (Nat.le_max_left _ _)
  | append_singleton ran m ih =>
    intro s' hs' hid active
    have o := launched.orderly.follow (before ++ ran)
    have shorter : (e.follow before).Unaided id ran := fun part hpart =>
      unaided part (hpart.trans (List.prefix_append ran [m]))
    rw [← List.append_assoc, Engine.follow_concat] at hs'
    rcases o.fares m hs' with ⟨s, hs, fares⟩ | ⟨-, newborn⟩
    · have hid' : s.id = id := fares.id_eq.symm.trans hid
      have below := ih shorter s hs hid'
      have idle : s.agent.hasActiveWork = false :=
        unaided ran (List.prefix_append ran [m]) s (by rwa [← Engine.follow_append]) hid'
      have limit : (e.follow (before ++ ran)).limit = e.limit := by
        rw [Engine.limit, launched.orderly.project_follow, Engine.limit]
      cases fares with
      | idle deed keeps =>
        obtain ⟨parent, ha⟩ := keeps.agent
        rw [ha] at active ⊢
        exact below active
      | acts acts keeps =>
        obtain ⟨parent, ha⟩ := keeps.agent
        rw [ha] at active ⊢
        rw [← limit] at below ⊢
        exact acts.below idle below active
    · rw [Agent.isActive, newborn.unused.task] at active
      cases active

/-- **Giving up happens exactly on time and reports once.** An agent has a task, and one of its turns
fails. As long as too few turns have failed in a row it tries again; with the last one that is too
many it gives up if nobody works for it, and is stuck if somebody does. And in every part of a run in
which nobody works for it, and which starts with no failure behind it, it gives up with the failure
that reaches the limit, and never with another. Replies count as fresh starts, and so do refusals of
the provider; other errors of the model and prompts that cannot be rendered count as failures. -/
theorem gives_up_on_time (launched : Launched e) (moves : List Move)
    (hs : s ∈ (e.follow moves).slots) (active : s.agent.isActive = true) :
    (∀ call prompt deadline reply, s.phase = .calling call prompt deadline →
      (e.follow moves).tick s.id (.answer s.id reply) =
        match reply with
        | .ok _ => .fresh
        | .error refusal => if refusal.isProviderSignature then .fresh else .failure) ∧
    (∀ unknown, s.phase = .ready →
      Turn.begin (e.follow moves).project (e.follow moves).templates (e.follow moves).world.site
        s.agent = .error unknown →
      (e.follow moves).tick s.id (.advance s.id) = .failure) ∧
    ∀ m error, (e.follow moves).deed m s.id = .fail error →
      ∃ s' ∈ (e.follow (moves ++ [m])).slots, s'.id = s.id ∧
        s.Fails s' error (inARow (e.trace (Engine.tick s.id) moves) + 1) e.limit
          (e.follow moves).world.site (e.follow (moves ++ [m])).world.site ∧
        ∀ before since, moves = before ++ since →
          inARow (e.trace (Engine.tick s.id) before) = 0 →
          (e.follow before).Unaided s.id since →
          inARow (e.trace (Engine.tick s.id) moves) + 1 ≤ e.limit ∧
            (s'.agent.task = none ↔ inARow (e.trace (Engine.tick s.id) moves) + 1 = e.limit) := by
  have o := launched.orderly.follow moves
  have hslot : (e.follow moves).slot? s.id = some s := Engine.slot?_of_mem o.distinct hs
  have hcount := launched.counts_failures moves hs active
  have hlimit : (e.follow moves).limit = e.limit := by
    rw [Engine.limit, launched.orderly.project_follow, Engine.limit]
  refine ⟨fun call prompt deadline reply phase => ?_, fun unknown phase fails => ?_,
    fun m error fails => ?_⟩
  · rw [Engine.tick_of_mem o.distinct hs]
    simp only [Engine.deed, hslot, if_true, Slot.response, phase, Engine.outcome]
    cases reply with
    | ok text => rfl
    | error refusal =>
      simp only
      by_cases signature : refusal.isProviderSignature = true
      · simp only [signature, if_true, Slot.tick]
      · simp only [signature, Bool.false_eq_true, if_false, Slot.tick]
  · rw [Engine.tick_of_mem o.distinct hs]
    simp only [Engine.deed, hslot, if_true, Slot.stride, phase, fails, Slot.tick]
  · obtain ⟨s', hs', hid, hfails⟩ := o.failed hs fails
    rw [hcount, hlimit] at hfails
    rw [Engine.follow_concat]
    refine ⟨s', hs', hid, hfails, ?_⟩
    rintro before since rfl start unaided
    have below := launched.below_limit start unaided s hs rfl active
    rw [hcount] at below
    refine ⟨below, fun gone => ?_, fun reached => ?_⟩
    · by_contra early
      have kept := (hfails.few (Nat.lt_of_le_of_ne below early)).1.task
      rw [Agent.isActive, ← kept, gone] at active
      cases active
    · have idle : s.agent.hasActiveWork = false :=
        unaided since (List.prefix_refl since) s (by rwa [← Engine.follow_append]) rfl
      exact (hfails.idle (Nat.le_of_eq reached.symm) idle).1.task

/-- The network fails. -/
def shedFailure : Move := .answer ⟨1⟩ (.error (.ofKind .networkError "unreachable"))

/-- The coder is given a task, and its first four turns fail. -/
def shedFailing : List Move :=
  [Move.enterRun ⟨1⟩ "one", .admitRun 0, .registerRun 0, .dispatchRun 0] ++
  List.replicate 4 (Move.advance ⟨1⟩) ++
  (List.replicate 4 [shedFailure, .advance ⟨1⟩, .advance ⟨1⟩]).flatten

/-- With the fifth failure it gives up. -/
theorem gives_up_on_time_shed : Launched shedStart ∧
    ∃ s ∈ (shedStart.follow shedFailing).slots, s.id = ⟨1⟩ ∧ s.agent.isActive = true ∧
      ∃ s' ∈ (shedStart.follow (shedFailing ++ [shedFailure])).slots, s'.id = s.id ∧ s.GaveUp s' := by
  have before : ∃ s ∈ (shedStart.follow shedFailing).slots, s.id = ⟨1⟩ ∧
      s.agent.isActive = true ∧ s.agent.hasActiveWork = false ∧
      (shedStart.follow shedFailing).deed shedFailure ⟨1⟩ = .fail "Network error: unreachable" := by
    decide +kernel
  have four : inARow (shedStart.trace (Engine.tick ⟨1⟩) shedFailing) = 4 := by decide +kernel
  have five : shedStart.limit = 5 := by decide +kernel
  obtain ⟨s, hs, hid, active, idle, fails⟩ := before
  rw [← hid] at fails four
  obtain ⟨-, -, failing⟩ := gives_up_on_time shed_launched shedFailing hs active
  obtain ⟨s', hs', hid', hfails, -⟩ := failing shedFailure _ fails
  have reached : shedStart.limit ≤ inARow (shedStart.trace (Engine.tick s.id) shedFailing) + 1 := by
    rw [four, five]
  exact ⟨shed_launched, s, hs, hid, active, s', hs', hid', (hfails.idle reached idle).1⟩

end Arbor
