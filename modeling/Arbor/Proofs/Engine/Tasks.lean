import Arbor.Proofs.Roster

/-! # What becomes of tasks

An agent without a task takes on the one that an envelope brings. It keeps the task until it ends,
and the end is reported by an effect that names the task and whoever sent it.

* `Slot.TaskChange`: what a move can make of the task of an agent.
* `Orderly.taskChange`: every move does so.
* `Launched.entitled`: along every run, tasks that are held or about to be reported were taken on
  from the one that the report goes to. -/

namespace Arbor

open Turn

/-- An agent takes on a task that was sent to it. -/
structure Activation where
  agent : AgentId
  sender : Option AgentId
  task : Task
  deriving DecidableEq, Repr

namespace Slot

/-- The task that a deed has the agent take on. -/
def activation? (s : Slot) : Deed → Option Activation
  | .hear (.task sender task) => if s.agent.isActive then none else some ⟨s.id, sender, task⟩
  | _ => none

/-- The report that a deed has the agent send. -/
def report? (s : Slot) : Deed → Option Report
  | .report ending => ending.report? s
  | _ => none

/-- **What a move can make of the task of an agent,** together with the task that it takes on. -/
inductive TaskChange (s : Slot) (activation : Option Activation) (s' : Slot) : Prop where
  | stays (quiet : activation = none) (task : s'.agent.task = s.agent.task)
      (origin : s.agent.task ≠ none → s'.agent.origin = s.agent.origin)
      (completed : s'.agent.completed = s.agent.completed)
  /-- The agent was idle and takes on the task that was delivered. -/
  | starts {sender : Option AgentId} {task : Task} {rest : List Envelope}
      (activated : activation = some ⟨s.id, sender, task⟩) (idle : s.agent.task = none)
      (delivered : s.inbox = .task sender task :: rest) (task : s'.agent.task = some task)
      (origin : s'.agent.origin = sender) (completed : s'.agent.completed = s.agent.completed)
  /-- The task ends and is noted as completed, and its end is yet to be reported. -/
  | ends {task : Task} {ending : Ending} (quiet : activation = none)
      (held : s.agent.task = some task) (idle : s'.agent.task = none)
      (completed : s'.agent.completed = s.agent.completed ++ [task.id])
      (reports : s'.phase.pending = [.finish ending]) (ended : ending.task = some task)
      (origin : ending.origin = s.agent.origin)

end Slot

namespace Engine

/-- The task that a move has an agent take on. -/
def activation? (e : Engine) (m : Move) (id : AgentId) : Option Activation :=
  (e.slot? id).bind fun s => s.activation? (e.deed m id)

/-- The report that a move has an agent send. -/
def report? (e : Engine) (m : Move) (id : AgentId) : Option Report :=
  (e.slot? id).bind fun s => s.report? (e.deed m id)

/-- The task that a move has somebody take on. -/
def activated? (e : Engine) (m : Move) : Option Activation := m.actor?.bind (e.activation? m)

/-- **The report that a move sends on its way.** -/
def routed? (e : Engine) (m : Move) : Option Report := m.actor?.bind (e.report? m)

end Engine

variable {e : Engine} {m : Move} {s s' : Slot}

/-! ### One step -/

theorem Engine.activation?_of_mem (distinct : e.ids.Nodup) (hs : s ∈ e.slots) :
    e.activation? m s.id = s.activation? (e.deed m s.id) := by
  rw [Engine.activation?, Engine.slot?_of_mem distinct hs]
  rfl

/-- Whoever takes on a task makes the move. -/
theorem Engine.activated?_of_mem {activation : Activation} (distinct : e.ids.Nodup)
    (hs : s ∈ e.slots) (h : s.activation? (e.deed m s.id) = some activation) :
    e.activated? m = some activation := by
  have actor : m.actor? = some s.id := by
    by_contra hactor
    rw [Engine.deed_eq_other hactor] at h
    cases h
  rw [Engine.activated?, actor, Option.bind_some, Engine.activation?_of_mem distinct hs, h]

/-- Whoever sends a report has it left to do. -/
theorem Engine.routed?_eq_some {r : Report} (h : e.routed? m = some r) :
    ∃ s ∈ e.slots, ∃ ending, m.actor? = some s.id ∧ e.deed m s.id = .report ending ∧
      ending.report? s = some r := by
  obtain ⟨id, actor, h⟩ := Option.bind_eq_some_iff.mp h
  obtain ⟨s, hslot, h⟩ := Option.bind_eq_some_iff.mp h
  obtain ⟨hs, rfl⟩ := Engine.mem_of_slot? hslot
  unfold Slot.report? at h
  split at h
  · next ending hdeed => exact ⟨s, hs, ending, actor, hdeed, h⟩
  · cases h

/-- Ending a task, where there may be none. -/
theorem taskChange_retire {ending : Ending} (retire : s'.agent.books = s.agent.books.retire)
    (reports : s'.phase.pending = [.finish ending]) (ended : ending.task = s.agent.task)
    (origin : ending.origin = s.agent.origin) : s.TaskChange none s' := by
  have htask : s'.agent.task = none := congrArg Books.task retire
  have hcompleted : s'.agent.completed =
      s.agent.completed ++ (s.agent.task.map Task.id).toList := congrArg Books.completed retire
  cases hheld : s.agent.task with
  | none =>
    rw [hheld] at hcompleted
    exact .stays rfl (htask.trans hheld.symm) (fun h => absurd hheld h)
      (hcompleted.trans (List.append_nil _))
  | some task =>
    rw [hheld] at hcompleted ended
    exact .ends rfl hheld htask hcompleted reports ended origin

theorem GivesUp.taskChange {a a' : Agent} {phase : Phase} (h : GivesUp a a' phase)
    (books : a.books = s.agent.books) :
    s.TaskChange none { s with agent := a', phase := phase } := by
  cases h with
  | stuck busy =>
    exact .stays rfl (congrArg Books.task books) (fun _ => congrArg Books.origin books)
      (congrArg Books.completed books)
  | ended idle payload =>
    refine taskChange_retire ?_ rfl (congrArg Books.task books) (congrArg Books.origin books)
    rw [← books]
    rfl

/-- **What an agent's own step makes of its task.** -/
theorem Acts.taskChange {deed : Deed} {errand : Errand} {n : Nat} (h : Acts e s deed s' errand n) :
    s.TaskChange (s.activation? deed) s' := by
  cases h with
  | @heard envelope rest phase inbox =>
    have hbooks := s.agent.books_receive envelope e.world.now
    rcases s.agent.books.receive_task_cases envelope with
      ⟨htask, horigin, hcompleted, hother⟩ | ⟨hidle, sender, task, rfl, hreceive⟩
    · have hquiet : s.activation? (.hear envelope) = none := by
        cases envelope with
        | task sender task =>
          cases hheld : s.agent.task with
          | none => exact absurd rfl (hother hheld sender task)
          | some held => simp [Slot.activation?, Agent.isActive, hheld]
        | plain text => rfl
        | report r => rfl
      exact .stays hquiet ((congrArg Books.task hbooks).trans htask)
        (fun _ => (congrArg Books.origin hbooks).trans horigin)
        ((congrArg Books.completed hbooks).trans hcompleted)
    · have hidle' : s.agent.task = none := hidle
      rw [hreceive] at hbooks
      refine .starts ?_ hidle inbox (congrArg Books.task hbooks) (congrArg Books.origin hbooks)
        (congrArg Books.completed hbooks)
      simp [Slot.activation?, Agent.isActive, hidle']
  | began phase begun =>
    obtain ⟨-, -, rfl⟩ := begin_eq_some begun
    exact .stays rfl rfl (fun _ => rfl) rfl
  | @completed call prompt response deadline done phase complete =>
    rcases (booked_of_completed complete).task_cases with
      ⟨htask, horigin, hcompleted, -⟩ | ⟨ending, heffects, hretire, htask, horigin⟩
    · exact .stays rfl htask (fun _ => horigin) hcompleted
    · exact taskChange_retire hretire heffects htask horigin
  | despaired turn many gives => exact gives.taskChange rfl
  | abandoned phase gives => exact gives.taskChange rfl
  | _ => exact .stays rfl rfl (fun _ => rfl) rfl

/-- What others do to an agent does not concern its task. -/
theorem Slot.TaskChange.keeps {mid : Slot} {activation : Option Activation}
    (h : s.TaskChange activation mid) (keeps : mid.Keeps s') : s.TaskChange activation s' := by
  have htask : s'.agent.task = mid.agent.task := congrArg Books.task keeps.books
  have horigin : s'.agent.origin = mid.agent.origin := congrArg Books.origin keeps.books
  have hcompleted : s'.agent.completed = mid.agent.completed :=
    congrArg Books.completed keeps.books
  cases h with
  | stays quiet task origin completed =>
    exact .stays quiet (htask.trans task) (fun h => horigin.trans (origin h))
      (hcompleted.trans completed)
  | starts activated idle delivered task origin completed =>
    exact .starts activated idle delivered (htask.trans task) (horigin.trans origin)
      (hcompleted.trans completed)
  | ends quiet held idle completed reports ended origin =>
    exact .ends quiet held (htask.trans idle) (hcompleted.trans completed)
      ((congrArg Phase.pending keeps.phase).trans reports) ended origin

/-- **What any move makes of the task of an agent.** -/
theorem Slot.Fares.taskChange (h : s.Fares e m s') :
    s.TaskChange (s.activation? (e.deed m s.id)) s' := by
  cases h with
  | idle deed keeps =>
    rw [deed]
    exact (Slot.TaskChange.stays rfl rfl (fun _ => rfl) rfl).keeps keeps
  | acts acts keeps => exact acts.taskChange.keeps keeps

/-- Every agent is there behind a move, with its task changed in one of these ways. -/
theorem Orderly.taskChange (o : Orderly e) (hs : s ∈ e.slots) :
    ∃ s' ∈ (e.step m).slots, s'.id = s.id ∧ s.TaskChange (e.activation? m s.id) s' := by
  rcases o.slot?_step m s.id with ⟨t, s', ht, hs', hfares⟩ | ⟨hnone, -⟩
  · rw [Engine.slot?_of_mem o.distinct hs] at ht
    obtain rfl := Option.some.inj ht
    refine ⟨s', (Engine.mem_of_slot? hs').1, hfares.id_eq, ?_⟩
    rw [Engine.activation?_of_mem o.distinct hs]
    exact hfares.taskChange
  · rw [Engine.slot?_of_mem o.distinct hs] at hnone
    cases hnone

/-! ### Reports -/

/-- What the agent holds or is about to report, it was activated with, by the one that hears of
it. -/
structure Slot.Entitled (activations : List (Option Activation)) (s : Slot) : Prop where
  held : ∀ task, s.agent.task = some task → some ⟨s.id, s.agent.origin, task⟩ ∈ activations
  ended : ∀ ending task, .finish ending ∈ s.phase.pending → ending.task = some task →
    some ⟨s.id, ending.origin, task⟩ ∈ activations

namespace Slot.Entitled

variable {activations : List (Option Activation)}

theorem keeps (h : s.Entitled activations) (keeps : s.Keeps s') : s'.Entitled activations := by
  have htask : s'.agent.task = s.agent.task := congrArg Books.task keeps.books
  have horigin : s'.agent.origin = s.agent.origin := congrArg Books.origin keeps.books
  constructor
  case held =>
    rw [htask, horigin, keeps.id_eq]
    exact h.held
  case ended =>
    rw [keeps.phase, keeps.id_eq]
    exact h.ended

theorem mono {more : List (Option Activation)} (h : s.Entitled activations)
    (sub : ∀ activation, some activation ∈ activations → some activation ∈ more) :
    s.Entitled more :=
  ⟨fun task ht => sub _ (h.held task ht), fun ending task hm ht => sub _ (h.ended ending task hm ht)⟩

/-- A task that has just ended was held. -/
theorem ended_of_held (h : s.Entitled activations) {ending : Ending} {task : Task}
    (held : ending.task = s.agent.task) (origin : ending.origin = s.agent.origin)
    (ht : ending.task = some task) : some ⟨s.id, ending.origin, task⟩ ∈ activations := by
  rw [origin]
  exact h.held task (held.symm.trans ht)

/-- What is left to report behind a step was left before, or has just ended. -/
theorem finish_cases {deed : Deed} {errand : Errand} {n : Nat} (acts : Acts e s deed s' errand n)
    {ending : Ending} (hm : .finish ending ∈ s'.phase.pending) :
    .finish ending ∈ s.phase.pending ∨
      ending.task = s.agent.task ∧ ending.origin = s.agent.origin := by
  have applied : ∀ {effect : Effect} {rest : List Effect} {retiring : Bool},
      s.phase = .applying (effect :: rest) retiring →
      .finish ending ∈ rest → .finish ending ∈ s.phase.pending := by
    intro effect rest retiring phase hrest
    rw [phase]
    exact List.mem_cons_of_mem _ hrest
  cases acts with
  | passed passes =>
    rw [passes.pending] at hm
    exact Or.inl hm
  | heard phase inbox => exact Or.inl hm
  | began phase begun => cases hm
  | @completed call prompt response deadline done phase complete =>
    exact Or.inr ((booked_of_completed complete).finish hm).2.2
  | retried turn few => cases hm
  | despaired turn many gives =>
    cases gives with
    | stuck busy => cases hm
    | ended idle payload =>
      cases List.mem_singleton.mp hm
      exact Or.inr ⟨rfl, rfl⟩
  | revived phase text now => cases hm
  | abandoned phase gives =>
    cases gives with
    | stuck busy => cases hm
    | ended idle payload =>
      cases List.mem_singleton.mp hm
      exact Or.inr ⟨rfl, rfl⟩
  | missed phase gone => exact Or.inl (applied phase hm)
  | handed phase accepts => exact Or.inl (applied phase hm)
  | started phase => exact Or.inl (applied phase hm)
  | adopted phase => exact Or.inl (applied phase hm)
  | released phase subtree => exact Or.inl (applied phase hm)
  | reported phase =>
    rw [Slot.pending_of_ending phase]
    exact Or.inl (List.mem_cons_of_mem _ hm)

theorem acts {deed : Deed} {errand : Errand} {n : Nat} (h : s.Entitled activations)
    (acts : Acts e s deed s' errand n) : s'.Entitled (activations ++ [s.activation? deed]) := by
  constructor
  case held =>
    intro task ht
    rw [acts.id_eq]
    cases acts.taskChange with
    | stays quiet same origin completed =>
      rw [same] at ht
      rw [origin (by rw [ht]; simp)]
      exact List.mem_append_left _ (h.held task ht)
    | starts activated idle delivered now origin completed =>
      obtain rfl := Option.some.inj (now.symm.trans ht)
      rw [activated, origin]
      exact List.mem_append_right _ (List.mem_singleton.mpr rfl)
    | ends quiet held idle completed reports ended origin =>
      rw [idle] at ht
      cases ht
  case ended =>
    intro ending task hm ht
    rw [acts.id_eq]
    refine List.mem_append_left _ ?_
    rcases finish_cases acts hm with hm | ⟨held, origin⟩
    · exact h.ended ending task hm ht
    · exact h.ended_of_held held origin ht

theorem fares (h : s.Entitled activations) (fares : s.Fares e m s') :
    s'.Entitled (activations ++ [s.activation? (e.deed m s.id)]) := by
  cases fares with
  | idle deed keeps => exact (h.mono fun _ => List.mem_append_left _).keeps keeps
  | acts acts keeps => exact (h.acts acts).keeps keeps

end Slot.Entitled

/-- **Along every run agents are entitled to what they hold and report.** -/
theorem Launched.entitled (launched : Launched e) {moves : List Move}
    (hs : s ∈ (e.follow moves).slots) : s.Entitled (e.trace Engine.activated? moves) := by
  have o := launched.orderly
  refine launched.slots_follow (P := fun ran s => s.Entitled (e.trace Engine.activated? ran))
    ?new ?step moves s hs
  case new =>
    intro ran s idle newborn
    refine ⟨fun task ht => ?_, fun ending task hm => ?_⟩
    · rw [newborn.unused.task] at ht
      cases ht
    · rw [newborn.phase] at hm
      cases hm
  case step =>
    intro ran m s hs s' fares entitled
    rw [Engine.trace_concat]
    have hafter := entitled.fares fares
    cases hact : s.activation? ((e.follow ran).deed m s.id) with
    | none =>
      refine hafter.mono fun activation ha => List.mem_append_left _ ?_
      simpa [hact] using ha
    | some activation =>
      rw [Engine.activated?_of_mem (o.follow ran).distinct hs hact]
      rw [hact] at hafter
      exact hafter

end Arbor
