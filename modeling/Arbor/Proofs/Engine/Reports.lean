import Arbor.Proofs.Engine.Tasks

/-! # One report for each task

Tasks have numbers that are given out once. A task is *on its way* from the moment it has its number
until somebody takes it in, and is *held* from the moment somebody takes it on until its end is
reported. Both are counted over the whole engine: a move takes on no more than what was on its way,
and reports no more than what was held.

* `Orderly.onWay_step`, `Orderly.held_step`: the two accounts over one move.
* `Launched.counted`: the accounts over a run.
* `task_reported_once`: tasks are not replaced, and their ends are reported once, to whoever gave
  them. -/

namespace Arbor

open Turn

/-! ### Where tasks are -/

/-- The task that an envelope brings. -/
def Envelope.task? : Envelope → Option TaskId
  | .task _ t => some t.id
  | _ => none

/-- The task that an effect hands on. -/
def Effect.handed? : Effect → Option TaskId
  | .delegate _ task => some task.id
  | _ => none

/-- The task whose end an effect reports. -/
def Effect.ended? : Effect → Option TaskId
  | .finish ending => ending.task.map Task.id
  | _ => none

/-- The task of a run that is yet to be sent. -/
def Run.unsent (r : Run) : List TaskId :=
  match r.stage with
  | .registered task => [task.id]
  | _ => []

namespace Slot

/-- The tasks that are on their way to the agent or from it. -/
def onWay (s : Slot) : List TaskId :=
  s.inbox.filterMap Envelope.task? ++ s.phase.pending.filterMap Effect.handed?

/-- The tasks that the agent has or has yet to report. -/
def held (s : Slot) : List TaskId :=
  (s.agent.task.map Task.id).toList ++ s.phase.pending.filterMap Effect.ended?

end Slot

namespace Engine

/-- The tasks that nobody has taken in yet. -/
def onWay (e : Engine) : List TaskId := e.slots.flatMap Slot.onWay ++ e.runs.flatMap Run.unsent

/-- The tasks whose end has not been reported yet. -/
def held (e : Engine) : List TaskId := e.slots.flatMap Slot.held

/-- The tasks that were taken on in a run, in order. -/
def activations (e : Engine) (moves : List Move) : List TaskId :=
  (e.trace activated? moves).reduceOption.map fun a => a.task.id

/-- The tasks that were reported in a run, in order. -/
def reports (e : Engine) (moves : List Move) : List TaskId :=
  (e.trace routed? moves).reduceOption.map fun r => r.task.id

end Engine

/-- How often a number among those given out from `n` up to `n'` is a task's. -/
def freshCount (n n' : Nat) (k : TaskId) : Nat := if n ≤ k.number ∧ k.number < n' then 1 else 0

variable {e : Engine} {m : Move} {s s' : Slot} {k : TaskId}

/-! ### Slots -/

theorem filterMap_cons_toList {α β : Type} (f : α → Option β) (x : α) (rest : List α) :
    (x :: rest).filterMap f = (f x).toList ++ rest.filterMap f := by
  cases h : f x <;> simp [h]

/-- A slot is put in the place of another, and the slots around it are of other agents. -/
theorem swap_split (distinct : e.ids.Nodup) (hs : s ∈ e.slots) (id : s'.id = s.id) :
    ∃ before behind, e.slots = before ++ s :: behind ∧
      (e.swap s').slots = before ++ s' :: behind ∧
      ∀ t, t ∈ before ∨ t ∈ behind → t.id ≠ s.id := by
  obtain ⟨before, behind, hsplit⟩ := List.append_of_mem hs
  have hother : ∀ t, t ∈ before ∨ t ∈ behind → t.id ≠ s.id := by
    intro t ht hid
    rw [Engine.ids, hsplit, List.map_append, List.map_cons] at distinct
    have hperm : (s.id :: (before ++ behind).map Slot.id).Nodup := by
      rw [List.map_append]
      exact List.perm_middle.nodup_iff.mp distinct
    refine (List.nodup_cons.mp hperm).1 ?_
    rw [← hid]
    exact List.mem_map_of_mem (List.mem_append.mpr ht)
  have hstays : ∀ l : List Slot, (∀ t ∈ l, t.id ≠ s.id) →
      l.map (fun t => if t.id = s'.id then s' else t) = l := by
    intro l hl
    calc l.map (fun t => if t.id = s'.id then s' else t) = l.map fun t => t := by
          refine List.map_congr_left fun t ht => ?_
          rw [id, if_neg (hl t ht)]
      _ = l := List.map_id' l
  refine ⟨before, behind, hsplit, ?_, hother⟩
  rw [Engine.swap, hsplit, List.map_append, List.map_cons,
    hstays before fun t ht => hother t (Or.inl ht), hstays behind fun t ht => hother t (Or.inr ht),
    if_pos id.symm]

/-- What the slots of an engine hold, when one of them is put in the place of another. -/
theorem count_swap {α : Type} [DecidableEq α] {k : α} (f : Slot → List α) (distinct : e.ids.Nodup)
    (hs : s ∈ e.slots) (id : s'.id = s.id) :
    ((e.swap s').slots.flatMap f).count k + (f s).count k =
      (e.slots.flatMap f).count k + (f s').count k := by
  obtain ⟨before, behind, hsplit, hswap, -⟩ := swap_split distinct hs id
  rw [hsplit, hswap]
  simp only [List.flatMap_append, List.flatMap_cons, List.count_append]
  omega

/-- Where lists have nothing twice between them, each thing is on one of them. -/
theorem eq_of_nodup_flatMap {α β : Type} {f : α → List β} {l : List α} (nodup : (l.flatMap f).Nodup)
    {a b : α} (ha : a ∈ l) (hb : b ∈ l) {x : β} (hx : x ∈ f a) (hx' : x ∈ f b) : a = b := by
  have hsymm : Std.Symm (Function.onFun List.Disjoint f) := ⟨fun _ _ hd => hd.symm⟩
  by_contra hne
  exact (List.nodup_flatMap.mp nodup).2.forall ha hb hne hx hx'

/-- What others do to the slots of an engine leaves what they hold where it is. -/
theorem flatMap_map_eq {α : Type} (f : Slot → List α) {g : Slot → Slot} (slots : List Slot)
    (same : ∀ t, f (g t) = f t) : (slots.map g).flatMap f = slots.flatMap f := by
  rw [List.flatMap_map]
  exact List.flatMap_congr fun t _ => same t

/-- A master above the root leaves what slots hold where it is. -/
theorem flatMap_crowned {α : Type} (e : Engine) (f : Slot → List α) (parent : Option AgentId)
    (same : ∀ t : Slot, f { t with agent := { t.agent with parent := parent } } = f t) :
    (e.modifyAgent e.root fun a => { a with parent := parent }).slots.flatMap f =
      e.slots.flatMap f := by
  refine flatMap_map_eq f e.slots fun t => ?_
  split
  · exact same t
  · rfl

theorem held_send (e : Engine) (id : AgentId) (envelope : Envelope) :
    (e.send id envelope).slots.flatMap Slot.held = e.slots.flatMap Slot.held := by
  refine flatMap_map_eq Slot.held e.slots fun t => ?_
  split <;> rfl

/-- An envelope brings its task. -/
theorem count_onWay_send (distinct : e.ids.Nodup) (id : AgentId) (envelope : Envelope) :
    ((e.send id envelope).slots.flatMap Slot.onWay).count k ≤
      (e.slots.flatMap Slot.onWay).count k + envelope.task?.toList.count k := by
  by_cases hmem : id ∈ e.ids
  · obtain ⟨s, hs, rfl⟩ := List.mem_map.mp hmem
    have hid : ({ s with inbox := s.inbox ++ [envelope] } : Slot).id = s.id := rfl
    have hcount := count_swap (k := k) Slot.onWay distinct hs hid
    have hsent : ({ s with inbox := s.inbox ++ [envelope] } : Slot).onWay.count k =
        s.onWay.count k + envelope.task?.toList.count k := by
      simp only [Slot.onWay, List.filterMap_append, List.count_append, filterMap_cons_toList,
        List.filterMap_nil, List.count_nil]
      omega
    rw [Engine.send, Engine.modifySlot_eq_swap distinct hs rfl]
    omega
  · have hsame : (e.send id envelope).slots = e.slots := by
      refine (List.map_congr_left fun t ht => if_neg fun hid => hmem ?_).trans (List.map_id' _)
      exact List.mem_map.mpr ⟨t, ht, hid⟩
    rw [hsame]
    exact Nat.le_add_right _ _

/-! ### Runs of tasks from outside -/

theorem count_unsent_setStage {r : Run} {n : Nat} (stage : RunStage) (hr : e.runs[n]? = some r) :
    ((e.setStage n stage).runs.flatMap Run.unsent).count k + r.unsent.count k =
      (e.runs.flatMap Run.unsent).count k + (Run.unsent { r with stage := stage }).count k := by
  unfold Engine.setStage
  generalize e.runs = runs at hr ⊢
  induction runs generalizing n with
  | nil => cases hr
  | cons first rest ih =>
    cases n with
    | zero =>
      obtain rfl := Option.some.inj hr
      simp only [List.modify_zero_cons, List.flatMap_cons, List.count_append]
      omega
    | succ n =>
      have hrest := ih (n := n) hr
      simp only [List.modify_succ_cons, List.flatMap_cons, List.count_append] at hrest ⊢
      omega

/-- A run that goes on to a stage with nothing left to send. -/
theorem count_unsent_setStage_le (n : Nat) (stage : RunStage)
    (sent : ∀ r : Run, Run.unsent { r with stage := stage } = []) :
    ((e.setStage n stage).runs.flatMap Run.unsent).count k ≤
      (e.runs.flatMap Run.unsent).count k := by
  cases hr : e.runs[n]? with
  | none =>
    have hsame : (e.setStage n stage).runs = e.runs :=
      List.modify_eq_self (List.getElem?_eq_none_iff.mp hr)
    rw [hsame]
  | some r =>
    have hcount := count_unsent_setStage (k := k) stage hr
    rw [sent r] at hcount
    simp only [List.count_nil] at hcount
    omega

theorem count_unsent_answerRun (e : Engine) (r : Report) :
    ((e.answerRun r).runs.flatMap Run.unsent).count k ≤ (e.runs.flatMap Run.unsent).count k := by
  unfold Engine.answerRun
  split
  · exact Nat.le_refl _
  · simp only
    split
    · exact Nat.le_refl _
    · refine count_unsent_setStage_le (e := { e with awaited := _ }) _ _ fun x => ?_
      split <;> rfl

/-! ### What an agent's step does to the tasks -/

theorem count_le_freshCount {l : List TaskId} {n n' : Nat} (nodup : l.Nodup)
    (fresh : ∀ x ∈ l, n ≤ x.number ∧ x.number < n') : l.count k ≤ freshCount n n' k := by
  unfold freshCount
  split
  · exact List.nodup_iff_count_le_one.mp nodup k
  · next h => exact Nat.le_of_eq (List.count_eq_zero.mpr fun hk => h (fresh k hk))

/-- The next number is new. -/
theorem count_next_le (n : Nat) : ([⟨n⟩] : List TaskId).count k ≤ freshCount n (n + 1) k :=
  count_le_freshCount (List.nodup_singleton _) (by simp)

/-- Tasks that are handed out have new numbers. -/
theorem tasksFrom_handed (n : Nat) (orders : List (AgentId × String)) :
    (tasksFrom n orders).filterMap Effect.handed? = (List.range' n orders.length).map TaskId.mk := by
  induction orders generalizing n with
  | nil => rfl
  | cons order rest ih =>
    obtain ⟨child, prompt⟩ := order
    simp [tasksFrom, Effect.handed?, List.range'_succ, ih]

/-- A turn hands on new tasks only. -/
theorem Booked.handed_count {b b' : Books} {n n' : Nat} {effects : List Effect}
    (h : Booked b n b' n' effects) :
    (effects.filterMap Effect.handed?).count k ≤ freshCount n n' k := by
  cases h with
  | nothing => exact Nat.zero_le _
  | adopted free lasting => exact Nat.zero_le _
  | dropped child idle => exact Nat.zero_le _
  | @handed orders children =>
    rw [tasksFrom_handed]
    refine count_le_freshCount (List.Nodup.map ?_ List.nodup_range') fun x hx => ?_
    · intro i j hij
      exact TaskId.mk.inj hij
    · obtain ⟨i, hi, rfl⟩ := List.mem_map.mp hx
      exact List.mem_range'_1.mp hi
  | @hired k' effects started =>
    have hnone : effects.filterMap Effect.handed? = [] := by
      refine List.filterMap_eq_nil_iff.mpr fun effect he => ?_
      obtain ⟨c, -, hc⟩ := helper?_of_started started he
      cases effect <;> first | rfl | cases hc
    rw [hnone]
    exact Nat.zero_le _
  | retired idle task origin => exact Nat.zero_le _

/-- A turn keeps the task or reports its end. -/
theorem Booked.ended_eq {b b' : Books} {n n' : Nat} {effects : List Effect}
    (h : Booked b n b' n' effects) :
    (b'.task.map Task.id).toList ++ effects.filterMap Effect.ended? =
      (b.task.map Task.id).toList := by
  rcases h.task_cases with ⟨htask, -, -, hnone⟩ | ⟨ending, rfl, rfl, htask, -⟩
  · have hempty : effects.filterMap Effect.ended? = [] := by
      refine List.filterMap_eq_nil_iff.mpr fun effect he => ?_
      cases effect with
      | finish ending => exact absurd he (hnone ending)
      | _ => rfl
    rw [htask, hempty, List.append_nil]
  · cases hheld : b.task with
    | none => simp [Books.retire, Effect.ended?, htask, hheld]
    | some task => simp [Books.retire, Effect.ended?, htask, hheld]

/-- The tasks that an errand takes along. -/
def Errand.tasks : Errand → List TaskId
  | .send _ envelope => envelope.task?.toList
  | .add newcomer => newcomer.onWay
  | _ => []

theorem Errand.onWay_run (distinct : e.ids.Nodup) (errand : Errand) :
    (errand.run e).onWay.count k ≤ e.onWay.count k + errand.tasks.count k := by
  unfold Engine.onWay
  simp only [List.count_append]
  cases errand with
  | none => exact Nat.le_refl _
  | send recipient envelope =>
    have hslots := count_onWay_send (k := k) distinct recipient envelope
    have hruns : (e.send recipient envelope).runs = e.runs := rfl
    simp only [Errand.run, Errand.tasks, hruns]
    omega
  | add newcomer =>
    simp only [Errand.run, Errand.tasks, List.flatMap_append, List.count_append,
      List.flatMap_singleton]
    omega
  | unlist ids =>
    have hslots : (e.unlist ids).slots.flatMap Slot.onWay = e.slots.flatMap Slot.onWay := by
      refine flatMap_map_eq Slot.onWay e.slots fun t => ?_
      split <;> rfl
    have hruns : (e.unlist ids).runs = e.runs := rfl
    simp only [Errand.run, Errand.tasks, hslots, hruns]
    exact Nat.le_refl _
  | answer r =>
    have hruns := count_unsent_answerRun (k := k) e r
    simp only [Errand.run, Errand.tasks, Engine.answerRun_slots, List.count_nil]
    omega

theorem Slot.IsNewborn.held (h : s.IsNewborn) : s.held = [] := by
  rw [Slot.held, h.unused.task, h.phase]
  rfl

/-- An errand concerns no task that somebody holds. -/
theorem Acts.held_run {deed : Deed} {errand : Errand} {n : Nat} (h : Acts e s deed s' errand n)
    (e' : Engine) : (errand.run e').held = e'.held := by
  unfold Engine.held
  cases errand with
  | none => rfl
  | send recipient envelope => exact held_send e' recipient envelope
  | add newcomer =>
    have hheld := (h.newborn rfl).held
    simp [Errand.run, hheld]
  | unlist ids =>
    refine flatMap_map_eq Slot.held e'.slots fun t => ?_
    split <;> rfl
  | answer r => rw [Errand.run, Engine.answerRun_slots]

/-- The task of an activation or of a report, if there is one. -/
def taskOf {α : Type} (f : α → Task) (x : Option α) : List TaskId := (x.map fun a => (f a).id).toList

theorem GivesUp.held_eq {a a' : Agent} {phase : Phase} (h : GivesUp a a' phase) :
    (a'.task.map Task.id).toList ++ phase.pending.filterMap Effect.ended? =
      (a.task.map Task.id).toList := by
  cases h with
  | stuck busy => simp [Phase.pending]
  | ended idle payload =>
    cases hheld : a.task <;> simp [Agent.retire, Phase.pending, Effect.ended?, hheld]

theorem GivesUp.handed_eq {a a' : Agent} {phase : Phase} (h : GivesUp a a' phase) :
    phase.pending.filterMap Effect.handed? = [] := by
  cases h <;> rfl

/-- **An agent's step reports what it held,** and holds what it takes on. -/
theorem Acts.held_count {deed : Deed} {errand : Errand} {n : Nat} (h : Acts e s deed s' errand n) :
    s'.held.count k + (taskOf Report.task (s.report? deed)).count k ≤
      s.held.count k + (taskOf Activation.task (s.activation? deed)).count k := by
  have hchange := h.taskChange
  have quiet : ∀ {l : List TaskId}, l = s.held → l.count k + (taskOf Report.task none).count k ≤
      s.held.count k + (taskOf Activation.task (s.activation? deed)).count k := by
    rintro l rfl
    simp [taskOf]
  -- striking off an effect that reports nothing
  have struck : ∀ {effect : Effect} {rest : List Effect} {retiring : Bool},
      s.phase = .applying (effect :: rest) retiring → effect.ended? = none →
      (s.agent.task.map Task.id).toList ++ rest.filterMap Effect.ended? = s.held := by
    intro effect rest retiring phase hnone
    simp [Slot.held, phase, hnone]
  cases h with
  | passed passes => exact quiet (by simp only [Slot.held, passes.pending])
  | @heard envelope rest phase inbox =>
    have hheld : ∀ t : Slot, t.phase = .delivering → t.held = (t.agent.task.map Task.id).toList := by
      intro t ht
      simp [Slot.held, ht]
    generalize hafter : ({ s with
      agent := s.agent.receive envelope e.world.now, inbox := rest } : Slot) = after at hchange ⊢
    rw [hheld s phase, hheld after (by rw [← hafter]; exact phase)]
    cases hchange with
    | stays none task origin completed =>
      rw [task, none]
      simp [taskOf, Slot.report?]
    | starts activated idle delivered task origin completed =>
      rw [task, idle, activated]
      simp [taskOf, Slot.report?]
    | ends none held idle completed reports ended origin =>
      rw [idle, held, none]
      simp [taskOf, Slot.report?]
  | began phase begun =>
    obtain ⟨-, -, rfl⟩ := begin_eq_some begun
    exact quiet (by simp [Slot.held, phase])
  | @completed call prompt response deadline done phase complete =>
    have hbooked := booked_of_completed complete
    refine quiet (hbooked.ended_eq.trans ?_)
    simp [Slot.held, phase, Agent.books]
  | retried turn few =>
    exact quiet (by simp [Slot.held, turn.idle, Slot.failed, Agent.enqueue])
  | despaired turn many gives =>
    refine quiet (gives.held_eq.trans ?_)
    simp [Slot.held, turn.idle, Slot.failed]
  | revived phase text now =>
    exact quiet (by simp [Slot.held, phase, Agent.enqueue, Agent.touch, Watchdog.reset])
  | abandoned phase gives =>
    refine quiet (gives.held_eq.trans ?_)
    simp [Slot.held, phase, Watchdog.reset]
  | missed phase gone => exact quiet (struck phase rfl)
  | handed phase accepts => exact quiet (struck phase rfl)
  | started phase => exact quiet (struck phase rfl)
  | adopted phase => exact quiet (struck phase rfl)
  | released phase subtree => exact quiet (struck phase rfl)
  | @reported ending rest retiring phase =>
    have hpending := Slot.pending_of_ending phase
    have hreport : taskOf Report.task (s.report? (.report ending)) =
        (ending.task.map Task.id).toList := by
      simp only [taskOf, Slot.report?, Ending.report?, Option.map_map]
      rfl
    rw [hreport]
    simp only [Slot.held, Slot.concluded, hpending, Phase.pending_applying, filterMap_cons_toList,
      Effect.ended?, List.count_append]
    omega

/-- **An agent's step takes on what was on its way,** and puts nothing on its way but what was there
and what is new. -/
theorem Acts.onWay_count {deed : Deed} {errand : Errand} {n : Nat} (h : Acts e s deed s' errand n) :
    s'.onWay.count k + errand.tasks.count k +
        (taskOf Activation.task (s.activation? deed)).count k ≤
      s.onWay.count k + freshCount e.world.nextNumber n k := by
  -- a step that leaves the inbox alone and neither hands on nor takes on anything
  have quiet : ∀ {n : Nat} {t : Slot}, t.inbox = s.inbox →
      t.phase.pending.filterMap Effect.handed? = s.phase.pending.filterMap Effect.handed? →
      t.onWay.count k + ([] : List TaskId).count k + (taskOf Activation.task none).count k ≤
        s.onWay.count k + freshCount e.world.nextNumber n k := by
    intro n t hinbox hpending
    rw [Slot.onWay, Slot.onWay, hinbox, hpending]
    simp [taskOf]
  cases h with
  | passed passes => exact quiet rfl (by simp only [passes.pending])
  | @heard envelope rest phase inbox =>
    have hactivation : (taskOf Activation.task (s.activation? (.hear envelope))).count k ≤
        envelope.task?.toList.count k := by
      cases envelope with
      | task sender task =>
        by_cases hactive : s.agent.isActive = true
        · simp [taskOf, Slot.activation?, hactive]
        · simp [taskOf, Slot.activation?, hactive, Envelope.task?]
      | plain text => exact Nat.zero_le _
      | report r => exact Nat.zero_le _
    simp only [Slot.onWay, phase, inbox, filterMap_cons_toList, Errand.tasks,
      Phase.pending_delivering, List.filterMap_nil, List.append_nil, List.count_nil,
      List.count_append]
    omega
  | began phase begun => exact quiet rfl (by simp [phase])
  | @completed call prompt response deadline done phase complete =>
    have hbooked := (booked_of_completed complete).handed_count (k := k)
    simp only [Slot.onWay, phase, Phase.pending_calling, Phase.pending_applying,
      List.count_append, Errand.tasks, taskOf, Slot.activation?, List.filterMap_nil, List.count_nil,
      Option.map_none, Option.toList_none]
    exact Nat.add_le_add_left hbooked _
  | retried turn few => exact quiet rfl (by simp [turn.idle])
  | despaired turn many gives => exact quiet rfl (by simp [turn.idle, gives.handed_eq])
  | revived phase text now => exact quiet rfl (by simp [phase])
  | abandoned phase gives => exact quiet rfl (by simp [phase, gives.handed_eq])
  | @missed child task rest retiring phase gone =>
    simp only [Slot.onWay, Slot.bereft, phase, Phase.pending_applying, filterMap_cons_toList,
      List.count_append, Errand.tasks, taskOf, Slot.activation?, Option.map_none,
      Option.toList_none, List.count_nil]
    omega
  | @handed child task rest retiring phase accepts =>
    simp only [Slot.onWay, phase, Phase.pending_applying, filterMap_cons_toList, Errand.tasks,
      Envelope.task?, Effect.handed?, List.count_append, taskOf, Slot.activation?, Option.map_none,
      Option.toList_none, List.count_nil]
    omega
  | @started helper kind prompt name scratch rest retiring phase =>
    have hnew := count_next_le (k := k) e.world.nextNumber
    simp only [Slot.onWay, phase, Phase.pending_applying, filterMap_cons_toList, Errand.tasks,
      Slot.newborn, Phase.pending_waiting, Envelope.task?, Effect.handed?, List.count_append,
      taskOf, Slot.activation?, Option.map_none, Option.toList_none, Option.toList_some,
      List.filterMap_nil, List.count_nil]
    omega
  | adopted phase => exact quiet rfl (by simp [phase, filterMap_cons_toList, Effect.handed?])
  | released phase subtree => exact quiet rfl (by simp [phase, filterMap_cons_toList, Effect.handed?])
  | @reported ending rest retiring phase =>
    have hpending := Slot.pending_of_ending phase
    have herrand : ((ending.report? s).elim .none
        (Report.errand (e.swap (s.concluded rest retiring)))).tasks = [] := by
      rcases Report.errand_cases (e.swap (s.concluded rest retiring)) (ending.report? s) with
        h | ⟨r, id, -, -, h⟩ | ⟨r, h⟩ <;> rw [h] <;> rfl
    rw [herrand]
    refine quiet rfl ?_
    simp [hpending, Slot.concluded, filterMap_cons_toList, Effect.handed?]

/-! ### The accounts over a move -/

theorem Engine.activated?_of_actor (distinct : e.ids.Nodup) (hs : s ∈ e.slots)
    (actor : m.actor? = some s.id) :
    e.activated? m = s.activation? (e.deed m s.id) ∧ e.routed? m = s.report? (e.deed m s.id) := by
  rw [Engine.activated?, Engine.routed?, actor, Option.bind_some, Option.bind_some,
    Engine.activation?, Engine.report?, Engine.slot?_of_mem distinct hs]
  exact ⟨rfl, rfl⟩

theorem Engine.activated?_of_outside (outside : m.actor? = none) :
    e.activated? m = none ∧ e.routed? m = none := by
  rw [Engine.activated?, Engine.routed?, outside]
  exact ⟨rfl, rfl⟩

/-- Nobody takes on or reports anything without a deed. -/
theorem Engine.activated?_of_idle (idle : ∀ id, e.deed m id = .other) :
    e.activated? m = none ∧ e.routed? m = none := by
  cases hactor : m.actor? with
  | none => exact Engine.activated?_of_outside hactor
  | some id =>
    rw [Engine.activated?, Engine.routed?, hactor, Option.bind_some, Option.bind_some,
      Engine.activation?, Engine.report?, idle id]
    cases e.slot? id <;> exact ⟨rfl, rfl⟩

/-- **What is held over a move:** nothing is reported that was not held, and nothing is held that
was not taken on. -/
theorem Orderly.held_step (o : Orderly e) (m : Move) :
    (e.step m).held.count k + (taskOf Report.task (e.routed? m)).count k ≤
      e.held.count k + (taskOf Activation.task (e.activated? m)).count k := by
  have quiet : ∀ {e' : Engine}, e'.held = e.held → e.routed? m = none →
      e'.held.count k + (taskOf Report.task (e.routed? m)).count k ≤
        e.held.count k + (taskOf Activation.task (e.activated? m)).count k := by
    intro e' hheld hnone
    rw [hheld, hnone]
    simp [taskOf]
  have change := step_change o.distinct m
  generalize e.step m = e' at change ⊢
  cases change with
  | still slots idle number closed =>
    exact quiet (by rw [Engine.held, slots]; rfl) (Engine.activated?_of_idle idle).2
  | @posted id envelope outside slots number closed source =>
    refine quiet ?_ (Engine.activated?_of_outside outside).2
    rw [Engine.held, slots]
    exact held_send e id envelope
  | @crowned root systemRole outside present number closed slots =>
    refine quiet ?_ (Engine.activated?_of_outside outside).2
    rw [Engine.held, slots, List.flatMap_append, flatMap_crowned e Slot.held _ fun _ => rfl]
    exact List.append_nil _
  | @acted s mem actor acted =>
    obtain ⟨hactivated, hrouted⟩ := Engine.activated?_of_actor o.distinct mem actor
    obtain @⟨s', errand, acts, slots, runs, closed⟩ := acted
    have hstep := acts.held_count (k := k)
    have hswap := count_swap (k := k) Slot.held o.distinct mem acts.id_eq
    have herrand : e'.held = (e.swap s').held := by
      rw [Engine.held, slots]
      exact acts.held_run (e.swap s')
    rw [hactivated, hrouted, herrand]
    unfold Engine.held
    omega

/-- The steps of agents. -/
theorem Acted.onWay {e' : Engine} (distinct : e.ids.Nodup) (hs : s ∈ e.slots)
    (h : Acted e s (e.deed m s.id) e') :
    e'.onWay.count k + (taskOf Activation.task (s.activation? (e.deed m s.id))).count k ≤
      e.onWay.count k + freshCount e.world.nextNumber e'.world.nextNumber k := by
  obtain @⟨s', errand, acts, slots, runs, closed⟩ := h
  have hstep := acts.onWay_count (k := k)
  have hswap := count_swap (k := k) Slot.onWay distinct hs acts.id_eq
  have hdistinct : (e.swap s').ids.Nodup := by
    rw [swap_ids]
    exact distinct
  have herrand := errand.onWay_run (e := e.swap s') (k := k) hdistinct
  have hsame : e'.onWay = (errand.run (e.swap s')).onWay := by
    rw [Engine.onWay, slots, runs]
    rfl
  have hruns : (e.swap s').runs = e.runs := rfl
  rw [hsame]
  simp only [Engine.onWay, List.count_append, hruns] at herrand ⊢
  omega

/-- A master brings no task. -/
theorem onWay_attachMaster {e' : Engine} {systemRole : Option Bool}
    (h : e.attachMaster systemRole = .ok e') : e'.onWay = e.onWay := by
  unfold Engine.attachMaster at h
  split at h
  · cases h
  · cases h
  · cases h
    simp only [Engine.onWay, Engine.register, List.flatMap_append]
    refine congrArg (· ++ e.runs.flatMap Run.unsent) ?_
    exact (List.append_nil _).trans (flatMap_crowned e Slot.onWay _ fun _ => rfl)

/-- The end of the engine sends nothing. -/
theorem count_unsent_cutShort (runs : List Run) :
    ((runs.map Engine.cutShort).flatMap Run.unsent).count k ≤ (runs.flatMap Run.unsent).count k := by
  induction runs with
  | nil => exact Nat.le_refl _
  | cons r rest ih =>
    have hfirst : (Engine.cutShort r).unsent.count k ≤ r.unsent.count k := by
      unfold Engine.cutShort
      split
      · exact Nat.le_refl _
      · exact Nat.zero_le _
    simp only [List.map_cons, List.flatMap_cons, List.count_append]
    omega

theorem count_onWay_setStage_le (n : Nat) (stage : RunStage)
    (sent : ∀ r : Run, Run.unsent { r with stage := stage } = []) :
    (e.setStage n stage).onWay.count k ≤ e.onWay.count k := by
  have hruns := count_unsent_setStage_le (e := e) (k := k) n stage sent
  have hslots : (e.setStage n stage).slots = e.slots := rfl
  simp only [Engine.onWay, List.count_append, hslots]
  omega

theorem count_onWay_sendPrompt (distinct : e.ids.Nodup) (id : AgentId) (text : String) :
    ((e.sendPrompt id text).toOption.getD e).onWay.count k ≤ e.onWay.count k := by
  unfold Engine.sendPrompt
  split
  · have hsent := count_onWay_send (k := k) distinct id (.plain text)
    have hruns : (e.send id (.plain text)).runs = e.runs := rfl
    simp only [Except.toOption, Option.getD_some, Engine.onWay, List.count_append, hruns,
      Envelope.task?, Option.toList_none, List.count_nil] at hsent ⊢
    omega
  · exact Nat.le_refl _

theorem count_onWay_admitRun (run : Nat) : (e.admitRun run).onWay.count k ≤ e.onWay.count k := by
  unfold Engine.admitRun
  split
  · split
    · exact count_onWay_setStage_le _ _ fun _ => rfl
    · split <;> exact count_onWay_setStage_le _ _ fun _ => rfl
  · exact Nat.le_refl _

/-- A run is given a new task. -/
theorem count_onWay_registerRun (run : Nat) :
    (e.registerRun run).onWay.count k ≤ e.onWay.count k +
      freshCount e.world.nextNumber (e.registerRun run).world.nextNumber k := by
  unfold Engine.registerRun
  split
  · next id text hrun =>
    have hnew := count_next_le (k := k) e.world.nextNumber
    have hruns := count_unsent_setStage (k := k) (.registered ⟨⟨e.world.nextNumber⟩, text⟩) hrun
    simp only [Run.unsent, List.count_nil] at hruns
    simp only [Engine.freshTask, Engine.freshNumber, Engine.onWay, Engine.setStage,
      List.count_append] at hruns ⊢
    omega
  · exact Nat.le_add_right _ _

/-- The task of a run is sent to its agent, or to nobody. -/
theorem count_onWay_dispatchRun (distinct : e.ids.Nodup) (run : Nat) :
    (e.dispatchRun run).onWay.count k ≤ e.onWay.count k := by
  unfold Engine.dispatchRun
  split
  · next id text task hrun =>
    split
    · have hsent := count_onWay_send (k := k) distinct id (.task none task)
      have hruns := count_unsent_setStage (e := e.send id (.task none task)) (k := k)
        (.sent task) hrun
      have hslots : ((e.send id (.task none task)).setStage run (.sent task)).slots =
        (e.send id (.task none task)).slots := rfl
      have hbefore : (e.send id (.task none task)).runs = e.runs := rfl
      simp only [Run.unsent, List.count_nil, hbefore, Envelope.task?, Option.toList_some]
        at hruns hsent
      simp only [Engine.onWay, List.count_append, hslots]
      omega
    · exact count_onWay_setStage_le _ _ fun _ => rfl
  · exact Nat.le_refl _

/-- What comes from outside puts only new tasks on their way. -/
theorem onWay_outside (distinct : e.ids.Nodup) (outside : m.actor? = none) :
    (e.step m).onWay.count k ≤
      e.onWay.count k + freshCount e.world.nextNumber (e.step m).world.nextNumber k := by
  have nothingNew : ∀ {e' : Engine}, e'.onWay.count k ≤ e.onWay.count k →
      e'.onWay.count k ≤ e.onWay.count k +
        freshCount e.world.nextNumber e'.world.nextNumber k := by
    intro e' h
    exact Nat.le_trans h (Nat.le_add_right _ _)
  cases m with
  | advance id => cases outside
  | answer id reply => cases outside
  | prompt id text => exact nothingNew (count_onWay_sendPrompt distinct id text)
  | enterRun id text =>
    refine nothingNew (Nat.le_of_eq ?_)
    simp [Engine.step, Engine.enterRun, Engine.onWay, Run.unsent]
  | admitRun run => exact nothingNew (count_onWay_admitRun run)
  | registerRun run => exact count_onWay_registerRun run
  | dispatchRun run => exact nothingNew (count_onWay_dispatchRun distinct run)
  | attachMaster systemRole =>
    unfold Engine.step
    simp only
    cases h : e.attachMaster systemRole with
    | error error => exact nothingNew (Nat.le_refl _)
    | ok next => exact nothingNew (Nat.le_of_eq (congrArg (List.count k) (onWay_attachMaster h)))
  | setWorld world => exact nothingNew (Nat.le_refl _)
  | shutdown =>
    refine nothingNew ?_
    have hruns := count_unsent_cutShort (k := k) e.runs
    simp only [Engine.step, Engine.shutdown, Engine.onWay, List.count_append]
    omega

/-- **What is on its way over a move:** nothing is taken on that was not on its way, and nothing is
put on its way but what is new. -/
theorem Orderly.onWay_step (o : Orderly e) (m : Move) :
    (e.step m).onWay.count k + (taskOf Activation.task (e.activated? m)).count k ≤
      e.onWay.count k + freshCount e.world.nextNumber (e.step m).world.nextNumber k := by
  cases hactor : m.actor? with
  | none =>
    rw [(Engine.activated?_of_outside hactor).1]
    exact onWay_outside o.distinct hactor
  | some id =>
    rcases step_of_actor o.distinct hactor with ⟨hsame, hdeed⟩ | ⟨s, hs, rfl, hacted⟩
    · have hidle := Engine.deed_eq_other_of_actor hactor hdeed
      rw [hsame, (Engine.activated?_of_idle hidle).1]
      exact Nat.le_add_right _ _
    · rw [(Engine.activated?_of_actor o.distinct hs hactor).1]
      exact hacted.onWay o.distinct hs

/-! ### The accounts over a run -/

theorem Engine.activations_concat (e : Engine) (ran : List Move) (m : Move) :
    e.activations (ran ++ [m]) =
      e.activations ran ++ taskOf Activation.task ((e.follow ran).activated? m) := by
  rw [Engine.activations, Engine.trace_concat, List.reduceOption_append, List.map_append]
  cases (e.follow ran).activated? m <;> rfl

theorem Engine.reports_concat (e : Engine) (ran : List Move) (m : Move) :
    e.reports (ran ++ [m]) = e.reports ran ++ taskOf Report.task ((e.follow ran).routed? m) := by
  rw [Engine.reports, Engine.trace_concat, List.reduceOption_append, List.map_append]
  cases (e.follow ran).routed? m <;> rfl

/-- **The accounts over a run.** A number is a task's once: on its way or taken on, and not before it
was given out. Nothing was reported, or is held, that was not taken on. -/
structure Counted (e : Engine) (moves : List Move) (k : TaskId) : Prop where
  once : (e.follow moves).onWay.count k + (e.activations moves).count k ≤ 1
  later : (e.follow moves).world.nextNumber ≤ k.number →
    (e.follow moves).onWay.count k + (e.activations moves).count k = 0
  held : (e.follow moves).held.count k + (e.reports moves).count k ≤ (e.activations moves).count k

theorem Launched.counted (launched : Launched e) (moves : List Move) (k : TaskId) :
    Counted e moves k := by
  induction moves using List.reverseRecOn with
  | nil =>
    have hslots : ∀ s ∈ e.slots, s.onWay = [] ∧ s.held = [] := by
      intro s hs
      obtain ⟨htask, hinbox, hpending⟩ := launched.idle hs
      simp [Slot.onWay, Slot.held, htask, hinbox, hpending]
    have hway : e.onWay = [] := by
      have hruns : e.runs = [] := by cases launched; rfl
      simp only [Engine.onWay, hruns, List.flatMap_nil, List.append_nil, List.flatMap_eq_nil_iff]
      exact fun s hs => (hslots s hs).1
    have hheld : e.held = [] := List.flatMap_eq_nil_iff.mpr fun s hs => (hslots s hs).2
    refine ⟨?_, fun _ => ?_, ?_⟩
    · simp [Engine.follow, Engine.activations, Engine.trace, hway]
    · simp [Engine.follow, Engine.activations, Engine.trace, hway]
    · simp [Engine.follow, Engine.activations, Engine.reports, Engine.trace, hheld]
  | append_singleton ran m ih =>
    have o := launched.orderly.follow ran
    have hway := o.onWay_step (k := k) m
    have hheld := o.held_step (k := k) m
    have hnumber := o.number_le_step m
    have honce := ih.once
    have hlater := ih.later
    have hbefore := ih.held
    have hfresh : freshCount (e.follow ran).world.nextNumber
        ((e.follow ran).step m).world.nextNumber k = 0 ∨
        (freshCount (e.follow ran).world.nextNumber
          ((e.follow ran).step m).world.nextNumber k = 1 ∧
          (e.follow ran).world.nextNumber ≤ k.number ∧
          k.number < ((e.follow ran).step m).world.nextNumber) := by
      unfold freshCount
      split
      · next h => exact Or.inr ⟨rfl, h⟩
      · exact Or.inl rfl
    constructor
    case once =>
      rw [Engine.follow_concat, Engine.activations_concat, List.count_append]
      rcases hfresh with hf | ⟨hf, hnew, -⟩
      · omega
      · have := hlater hnew
        omega
    case later =>
      intro hk
      rw [Engine.follow_concat] at hk
      rw [Engine.follow_concat, Engine.activations_concat, List.count_append]
      have := hlater (Nat.le_trans hnumber hk)
      rcases hfresh with hf | ⟨-, -, hlt⟩
      · omega
      · omega
    case held =>
      rw [Engine.follow_concat, Engine.activations_concat, Engine.reports_concat,
        List.count_append, List.count_append]
      omega

/-! ### Where reports arrive -/

/-- An errand that delivers a report delivers the one that the deed sends, to its recipient. -/
theorem Acts.report_sent {deed : Deed} {errand : Errand} {n : Nat} {id : AgentId} {r : Report}
    (h : Acts e s deed s' errand n) (sent : errand = .send id (.report r)) :
    s.report? deed = some r ∧ r.recipient = some id := by
  cases h with
  | handed phase accepts => cases sent
  | @reported ending rest retiring phase =>
    rcases Report.errand_cases (e.swap (s.concluded rest retiring)) (ending.report? s) with
      h | ⟨r', recipient, hreport, hrecipient, h⟩ | ⟨r', h⟩
    · rw [h] at sent
      cases sent
    · rw [h] at sent
      cases sent
      exact ⟨hreport, hrecipient⟩
    · rw [h] at sent
      cases sent
  | _ => cases sent

/-- Agents that are added find no report. -/
theorem Acts.report_added {deed : Deed} {errand : Errand} {n : Nat} {t : Slot} {r : Report}
    (h : Acts e s deed s' errand n) (added : errand = .add t) : .report r ∉ t.inbox := by
  cases h with
  | started phase =>
    cases added
    simp [Slot.newborn]
  | adopted phase =>
    cases added
    simp [Slot.newborn]
  | @reported ending rest retiring phase =>
    rcases Report.errand_cases (e.swap (s.concluded rest retiring)) (ending.report? s) with
      h | ⟨r', id, -, -, h⟩ | ⟨r', h⟩ <;> rw [h] at added <;> cases added
  | _ => cases added

/-- **A report arrives by being sent,** and at its recipient. -/
theorem Orderly.report_arrives (o : Orderly e) (m : Move) {r : Report}
    (hs' : s' ∈ (e.step m).slots) (hr : .report r ∈ s'.inbox) :
    (∃ s ∈ e.slots, s.id = s'.id ∧ .report r ∈ s.inbox) ∨
      (e.routed? m = some r ∧ r.recipient = some s'.id) := by
  have change := step_change o.distinct m
  generalize e.step m = e' at change hs'
  cases change with
  | still slots idle number closed =>
    rw [slots] at hs'
    exact Or.inl ⟨s', hs', rfl, hr⟩
  | @posted id envelope outside slots number closed source =>
    have hsent' : s' ∈ ((Errand.send id envelope).run e).slots := slots ▸ hs'
    rcases Errand.inbox hsent' hr with hold | hsent | hadded
    · exact Or.inl hold
    · obtain ⟨-, rfl⟩ := Errand.send.inj hsent
      rcases source with ⟨text, h⟩ | ⟨task, h⟩ <;> cases h
    · cases hadded
  | @crowned root systemRole outside present number closed slots =>
    rw [slots] at hs'
    rcases List.mem_append.mp hs' with hs' | hs'
    · obtain ⟨s, hs, rfl⟩ := List.mem_map.mp hs'
      refine Or.inl ⟨s, hs, ?_⟩
      split
      · next h =>
        rw [if_pos h] at hr
        exact ⟨rfl, hr⟩
      · next h =>
        rw [if_neg h] at hr
        exact ⟨rfl, hr⟩
    · rw [List.mem_singleton.mp hs'] at hr
      cases hr
  | @acted s mem actor acted =>
    obtain @⟨mid, errand, acts, slots, runs, closed⟩ := acted
    rw [slots] at hs'
    rcases Errand.inbox hs' hr with ⟨u, hu, hid, hr⟩ | hsent | hadded
    · rcases mem_swap acts.id_eq hu with rfl | ⟨hu, -⟩
      · exact Or.inl ⟨s, mem, acts.id_eq.symm.trans hid, acts.inbox hr⟩
      · exact Or.inl ⟨u, hu, hid, hr⟩
    · obtain ⟨hreport, hrecipient⟩ := acts.report_sent hsent
      rw [(Engine.activated?_of_actor o.distinct mem actor).2]
      exact Or.inr ⟨hreport, hrecipient⟩
    · exact absurd hr (acts.report_added hadded)

/-- Along every run. -/
theorem Launched.report_routed (launched : Launched e) (moves : List Move) {r : Report}
    (hs : s ∈ (e.follow moves).slots) (hr : .report r ∈ s.inbox) :
    some r ∈ e.trace Engine.routed? moves ∧ r.recipient = some s.id := by
  induction moves using List.reverseRecOn generalizing s with
  | nil =>
    rw [(launched.idle hs).2.1] at hr
    cases hr
  | append_singleton ran m ih =>
    rw [Engine.follow_concat] at hs
    rw [Engine.trace_concat]
    rcases (launched.orderly.follow ran).report_arrives m hs hr with
      ⟨t, ht, hid, hr⟩ | ⟨hrouted, hrecipient⟩
    · obtain ⟨hmem, hrecipient⟩ := ih ht hr
      exact ⟨List.mem_append_left _ hmem, hid ▸ hrecipient⟩
    · rw [hrouted]
      exact ⟨List.mem_append_right _ (List.mem_singleton.mpr rfl), hrecipient⟩

/-! ### One report for each task -/

/-- A report goes out on a task that its sender was activated with, to the one who sent the task. -/
theorem Launched.routed_activated (launched : Launched e) (ran : List Move) {r : Report}
    (h : (e.follow ran).routed? m = some r) :
    some ⟨r.sender, r.recipient, r.task⟩ ∈ e.trace Engine.activated? ran := by
  obtain ⟨s, hs, ending, -, hdeed, hreport⟩ := Engine.routed?_eq_some h
  have hbusy : (e.follow ran).deed m s.id ≠ .other := by
    rw [hdeed]
    simp
  obtain ⟨mid, errand, n, acts⟩ := (launched.orderly.follow ran).acts_of_deed hs hbusy
  rw [hdeed] at acts
  have hpending : .finish ending ∈ s.phase.pending := by
    cases acts with
    | reported phase =>
      rw [Slot.pending_of_ending phase]
      exact List.mem_cons_self
  obtain ⟨task, htask, rfl⟩ := Option.map_eq_some_iff.mp hreport
  exact (launched.entitled hs).ended ending task hpending htask

/-- **One report for each task, to whoever gave it.** Behind any run, whatever move comes next: the
task of an agent stays, or an idle agent takes on the one delivered, or the task ends and its number
is put on the list of completed ones; a report that goes out is on a task that its sender took on,
and is addressed to the one who sent that task. No task is taken on twice, none is reported twice,
and what is in an inbox was sent there. -/
theorem task_reported_once (launched : Launched e) (ran : List Move) (m : Move) :
    (∀ s ∈ (e.follow ran).slots, ∃ s' ∈ (e.follow (ran ++ [m])).slots, s'.id = s.id ∧
      s.TaskChange ((e.follow ran).activation? m s.id) s') ∧
    (∀ r, (e.follow ran).routed? m = some r →
      some ⟨r.sender, r.recipient, r.task⟩ ∈ e.trace Engine.activated? ran) ∧
    (e.activations ran).Nodup ∧ (e.reports ran).Nodup ∧
    (∀ s ∈ (e.follow ran).slots, ∀ r, .report r ∈ s.inbox →
      some r ∈ e.trace Engine.routed? ran ∧ r.recipient = some s.id) := by
  refine ⟨fun s hs => ?_, fun r hr => launched.routed_activated ran hr, ?_, ?_,
    fun s hs r hr => launched.report_routed ran hs hr⟩
  · rw [Engine.follow_concat]
    exact (launched.orderly.follow ran).taskChange hs
  · refine List.nodup_iff_count_le_one.mpr fun k => ?_
    have honce := (launched.counted ran k).once
    omega
  · refine List.nodup_iff_count_le_one.mpr fun k => ?_
    have honce := (launched.counted ran k).once
    have hheld := (launched.counted ran k).held
    omega

/-- The manager is given a task and hands its coder one, which the coder ends. -/
def shedReport : List Move :=
  [Move.enterRun ⟨0⟩ "go", .admitRun 0, .registerRun 0, .dispatchRun 0] ++
  List.replicate 4 (Move.advance ⟨0⟩) ++
  [Move.answer ⟨0⟩ (.ok "DELEGATE FILE \"a\" PROMPT=\"one\""), .advance ⟨0⟩] ++
  List.replicate 4 (Move.advance ⟨1⟩) ++ [Move.answer ⟨1⟩ (.ok "FINISH PROMPT=\"did one\"")]

/-- The report on it goes to the manager, whose task it was. -/
theorem task_reported_once_shed : Launched shedStart ∧
    ∃ r, (shedStart.follow shedReport).routed? (.advance ⟨1⟩) = some r ∧ r.task.text = "one" ∧
      some ⟨⟨1⟩, some ⟨0⟩, r.task⟩ ∈ shedStart.trace Engine.activated? shedReport := by
  have hrouted : ∃ r ∈ (shedStart.follow shedReport).routed? (.advance ⟨1⟩),
      r.sender = ⟨1⟩ ∧ r.recipient = some ⟨0⟩ ∧ r.task.text = "one" := by
    decide +kernel
  obtain ⟨r, hr, hsender, hrecipient, htext⟩ := hrouted
  refine ⟨shed_launched, r, hr, htext, ?_⟩
  have hactivated := (task_reported_once shed_launched shedReport (.advance ⟨1⟩)).2.1 r hr
  rw [hsender, hrecipient] at hactivated
  exact hactivated

end Arbor
