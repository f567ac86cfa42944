import Arbor.Proofs.Engine.Flight
import Arbor.Proofs.Engine.Reports

/-! # The results that runs wait for

A run waits for the result of its task from the moment the task has its number. Until then the task
is yet to be sent, or is with the agent it was sent to: in its inbox, in its hands, or in a report
that is yet to leave. A busy agent that takes the task in makes a prompt of it, and nobody answers
the run any more.

* `Engine.Answerable`: where a task can be that somebody will answer.
* `Slot.WillAnswer.fares`: what a move makes of a task that was sent.
* `answerable_iff_unabsorbed`: along a run the awaited tasks are answerable exactly if no busy agent
  takes one in. -/

namespace Arbor

open Turn

/-- The task whose result the run waits for. -/
def Run.task? (r : Run) : Option Task :=
  match r.stage with
  | .registered task => some task
  | .sent task => some task
  | _ => none

/-- **The agent will answer a task from outside:** it is yet to take the task in, works on it, or is
yet to report its end. -/
inductive Slot.WillAnswer (s : Slot) (task : Task) : Prop where
  | waits (inbox : .task none task ∈ s.inbox)
  | works (held : s.agent.task = some task) (origin : s.agent.origin = none)
  | reports {ending : Ending} (pending : .finish ending ∈ s.phase.pending)
      (ended : ending.task = some task) (origin : ending.origin = none)

/-- **Somebody will answer the task of a number:** it is yet to be sent, or an agent that is there
will. -/
inductive Engine.Answerable (e : Engine) (k : TaskId) : Prop where
  | unsent {r : Run} {task : Task} (mem : r ∈ e.runs) (stage : r.stage = .registered task)
      (number : task.id = k)
  | taken {s : Slot} {task : Task} (mem : s ∈ e.slots) (live : ¬ s.Closed)
      (answers : s.WillAnswer task) (number : task.id = k)

/-- The agents that runs wait for are listed. -/
def Engine.Serves (e : Engine) : Prop :=
  ∀ r ∈ e.runs, r.task?.isSome → ∃ s ∈ e.slots, s.id = r.agent ∧ s.listed = true

instance (e : Engine) : Decidable e.Serves := by
  unfold Engine.Serves
  infer_instance

/-- **A busy agent takes in the task of a run that waits for its result.** -/
inductive Absorbs (e : Engine) (m : Move) : Prop where
  | intro {s : Slot} {task : Task} {rest : List Envelope} (mem : s ∈ e.slots)
      (move : m = .advance s.id) (phase : s.phase = .delivering)
      (inbox : s.inbox = .task none task :: rest) (busy : s.agent.isActive = true)
      (awaited : task.id ∈ e.awaited.map Prod.fst)

variable {e e' : Engine} {m : Move} {s s' : Slot} {task : Task} {k : TaskId}

/-! ### What becomes of a task that was sent -/

/-- The end of a task that is yet to be reported stays so, or is reported. -/
theorem Acts.finish_kept {deed : Deed} {errand : Errand} {n : Nat} (h : Acts e s deed s' errand n)
    {ending : Ending} (pending : .finish ending ∈ s.phase.pending) :
    .finish ending ∈ s'.phase.pending ∨ deed = .report ending := by
  -- the first effect is struck off, and it is another one
  have struck : ∀ {effect : Effect} {rest : List Effect} {retiring : Bool},
      s.phase = .applying (effect :: rest) retiring → effect ≠ .finish ending →
      .finish ending ∈ rest := by
    intro effect rest retiring phase hne
    rw [phase] at pending
    exact (List.mem_cons.mp pending).resolve_left (Ne.symm hne)
  cases h with
  | passed passes => exact Or.inl (passes.pending.symm ▸ pending)
  | heard phase inbox => exact Or.inl pending
  | retried turn few =>
    rw [turn.idle] at pending
    cases pending
  | despaired turn many gives =>
    rw [turn.idle] at pending
    cases pending
  | missed phase gone => exact Or.inl (struck phase (by simp))
  | handed phase accepts => exact Or.inl (struck phase (by simp))
  | started phase => exact Or.inl (struck phase (by simp))
  | adopted phase => exact Or.inl (struck phase (by simp))
  | released phase subtree => exact Or.inl (struck phase (by simp))
  | @reported first rest retiring phase =>
    rw [Slot.pending_of_ending phase] at pending
    rcases List.mem_cons.mp pending with heq | hrest
    · cases heq
      exact Or.inr rfl
    · exact Or.inl hrest
  | began phase begun =>
    rw [phase] at pending
    cases pending
  | completed phase complete =>
    rw [phase] at pending
    cases pending
  | revived phase text now =>
    rw [phase] at pending
    cases pending
  | abandoned phase gives =>
    rw [phase] at pending
    cases pending

namespace Slot.WillAnswer

theorem keeps (h : s.WillAnswer task) (keeps : s.Keeps s') : s'.WillAnswer task := by
  cases h with
  | waits inbox => exact .waits (keeps.mem_inbox inbox)
  | works held origin =>
    exact .works ((congrArg Books.task keeps.books).trans held)
      ((congrArg Books.origin keeps.books).trans origin)
  | reports pending ended origin => exact .reports (keeps.phase ▸ pending) ended origin

/-- An agent's own step: it will still answer, or takes in a task it cannot take on, or answers. -/
theorem acts {deed : Deed} {errand : Errand} {n : Nat} (h : s.WillAnswer task)
    (acts : Acts e s deed s' errand n) :
    s'.WillAnswer task ∨
    (∃ rest, deed = .hear (.task none task) ∧ s.phase = .delivering ∧
      s.inbox = .task none task :: rest ∧ s.agent.isActive = true) ∨
    ∃ ending, deed = .report ending ∧ ending.task = some task ∧ ending.origin = none := by
  cases h with
  | waits inbox =>
    rcases acts.inbox_cases with hsame | ⟨envelope, rest, rfl, phase, hinbox, rfl⟩
    · exact Or.inl (.waits (hsame ▸ inbox))
    · rw [hinbox] at inbox
      rcases List.mem_cons.mp inbox with rfl | inbox
      · cases hbusy : s.agent.isActive with
        | true => exact Or.inr (Or.inl ⟨rest, rfl, phase, hinbox, rfl⟩)
        | false =>
          have hactivation : s.activation? (.hear (.task none task)) = some ⟨s.id, none, task⟩ := by
            simp [Slot.activation?, hbusy]
          have hchange := acts.taskChange
          rw [hactivation] at hchange
          cases hchange with
          | stays quiet => cases quiet
          | starts activated idle delivered held origin completed =>
            cases activated
            exact Or.inl (.works held origin)
          | ends quiet => cases quiet
      · exact Or.inl (.waits inbox)
  | works held origin =>
    cases acts.taskChange with
    | stays quiet same origin' completed =>
      exact Or.inl (.works (same.trans held) ((origin' (by simp [held])).trans origin))
    | starts activated idle delivered now origin' completed =>
      rw [idle] at held
      cases held
    | @ends task' ending quiet held' idle completed reports ended origin' =>
      obtain rfl := Option.some.inj (held.symm.trans held')
      have hpending : .finish ending ∈ s'.phase.pending := by
        rw [reports]
        exact List.mem_singleton.mpr rfl
      exact Or.inl (.reports hpending ended (origin'.trans origin))
  | @reports ending pending ended origin =>
    rcases acts.finish_kept pending with pending | hdeed
    · exact Or.inl (.reports pending ended origin)
    · exact Or.inr (Or.inr ⟨ending, hdeed, ended, origin⟩)

theorem fares (h : s.WillAnswer task) (fares : s.Fares e m s') :
    s'.WillAnswer task ∨
    (∃ rest, e.deed m s.id = .hear (.task none task) ∧ s.phase = .delivering ∧
      s.inbox = .task none task :: rest ∧ s.agent.isActive = true) ∨
    ∃ ending, e.deed m s.id = .report ending ∧ ending.task = some task ∧ ending.origin = none := by
  cases fares with
  | idle deed keeps => exact Or.inl (h.keeps keeps)
  | acts acts keeps => exact (h.acts acts).imp_left fun h => h.keeps keeps

end Slot.WillAnswer

/-! ### Who stops -/

/-- The agent takes no step any more, or none behind the effects that are left. -/
def Phase.isLast : Phase → Bool
  | .applying _ retiring => retiring
  | .refreshing _ _ _ _ retiring => retiring
  | .stopped => true
  | _ => false

/-- Only an agent that is off the list stops. -/
def Slot.Settled (s : Slot) : Prop := s.phase.isLast = true → s.listed = false

namespace Slot.Settled

theorem keeps (h : s.Settled) (keeps : s.Keeps s') : s'.Settled := by
  intro last
  rw [keeps.phase] at last
  cases hlisted : s'.listed with
  | false => rfl
  | true => exact absurd (h last) (by simp [keeps.listed hlisted])

theorem acts {deed : Deed} {errand : Errand} {n : Nat} (h : s.Settled) (going : e.closed = false)
    (acts : Acts e s deed s' errand n) : s'.Settled := by
  have struck : ∀ {effects rest : List Effect} {retiring : Bool},
      s.phase = .applying effects retiring →
      Slot.Settled { s with phase := .applying rest retiring } := by
    intro effects rest retiring phase last
    exact h (by rw [phase]; exact last)
  cases acts with
  | passed passes =>
    cases passes with
    | stops phase done =>
      intro _
      exact done.resolve_left (by simp [going])
    | cut phase closed => simp [going] at closed
    | leaves phase =>
      intro _
      exact h (by rw [phase]; rfl)
    | refreshes phase =>
      intro last
      exact h (by rw [phase]; exact last)
    | _ => intro last; cases last
  | heard phase inbox => exact h
  | began phase begun => intro last; cases last
  | completed phase complete => intro last; cases last
  | retried turn few => intro last; cases last
  | despaired turn many gives => cases gives <;> (intro last; cases last)
  | revived phase text now => intro last; cases last
  | abandoned phase gives => cases gives <;> (intro last; cases last)
  | missed phase gone => exact struck phase
  | handed phase accepts => exact struck phase
  | started phase => exact struck phase
  | adopted phase => exact struck phase
  | released phase subtree => exact struck phase
  | @reported ending rest retiring phase =>
    intro last
    have hbefore : s.phase.isLast = retiring := by
      rcases phase with phase | ⟨call, doc, phase⟩ <;> rw [phase] <;> rfl
    simp only [Slot.concluded, Phase.isLast, Bool.or_eq_true] at last ⊢
    rcases last with last | last
    · rw [h (hbefore.trans last), Bool.false_and]
    · simp [last]

end Slot.Settled

theorem Launched.settled (launched : Launched e) {moves : List Move}
    (running : .shutdown ∉ moves) (hs : s ∈ (e.follow moves).slots) : s.Settled := by
  have o := launched.orderly
  refine launched.slots_follow (P := fun ran s => .shutdown ∉ ran → s.Settled) ?new ?step moves s hs
    running
  case new =>
    intro ran s idle newborn _ last
    rw [newborn.phase] at last
    cases last
  case step =>
    intro ran m s hs s' fares ih hrun
    have hran : Move.shutdown ∉ ran := fun h => hrun (List.mem_append_left _ h)
    have hgoing := (o.closed_follow hran).trans launched.closed
    cases fares with
    | idle deed keeps => exact (ih hran).keeps keeps
    | acts acts keeps => exact ((ih hran).acts hgoing acts).keeps keeps

/-! ### The results that are awaited -/

namespace Engine

/-- A result that is given is no longer awaited. -/
theorem answerRun_awaited (e : Engine) (r : Report) :
    (e.answerRun r).awaited = e.awaited.filter fun p => p.1 != r.task.id := by
  unfold answerRun
  cases hfind : e.awaited.lookup r.task.id with
  | none =>
    refine (List.filter_eq_self.mpr fun p hp => ?_).symm
    refine bne_iff_ne.mpr fun heq => ?_
    have hother := List.lookup_eq_none_iff.mp hfind p hp
    simp [heq] at hother
  | some run =>
    simp only
    split <;> rfl

theorem getElem?_setStage_ne {n i : Nat} (stage : RunStage) (ne : n ≠ i) :
    (e.setStage n stage).runs[i]? = e.runs[i]? := by
  simp [setStage, ne]

theorem getElem?_setStage {n : Nat} {r : Run} (stage : RunStage) (hr : e.runs[n]? = some r) :
    (e.setStage n stage).runs[n]? = some { r with stage := stage } := by
  simp [setStage, hr]

/-- A result that is given concerns the run that awaited it. -/
theorem answerRun_runs (e : Engine) (r : Report) (n : Nat) :
    (e.answerRun r).runs[n]? = e.runs[n]? ∨ (r.task.id, n) ∈ e.awaited := by
  unfold answerRun
  cases hfind : e.awaited.lookup r.task.id with
  | none => exact Or.inl rfl
  | some run =>
    by_cases hn : run = n
    · obtain ⟨before, behind, hsplit, -⟩ := List.lookup_eq_some_iff.mp hfind
      rw [hsplit, hn]
      exact Or.inr (List.mem_append_right _ List.mem_cons_self)
    · refine Or.inl ?_
      simp only
      split
      · rfl
      · exact getElem?_setStage_ne _ hn

end Engine

/-- A report from outside that leaves is no longer awaited. -/
theorem Orderly.not_awaited_of_report (o : Orderly e) (hs : s ∈ e.slots) {ending : Ending}
    (deed : e.deed m s.id = .report ending) (ended : ending.task = some task)
    (origin : ending.origin = none) : task.id ∉ (e.step m).awaited.map Prod.fst := by
  have actor : m.actor? = some s.id := by
    by_contra h
    rw [Engine.deed_eq_other h] at deed
    cases deed
  rcases step_of_actor o.distinct actor with ⟨-, hother⟩ | ⟨t, ht, hid, hacted⟩
  · rw [hother] at deed
    cases deed
  · obtain rfl := Engine.eq_of_id_eq o.distinct hs ht hid
    obtain @⟨mid, errand, acts, -, -, -, awaited, -⟩ := hacted
    rw [deed] at acts
    rw [awaited]
    generalize (e.step m).world.nextNumber = n at acts
    cases acts with
    | reported phase =>
      simp [Ending.report?, ended, Report.errand, origin, Errand.run, Engine.answerRun_awaited]

/-- A task that is awaited stays with somebody who will answer it. -/
theorem Slot.WillAnswer.step (h : s.WillAnswer task) (o : Orderly e) (hs : s ∈ e.slots)
    (free : ¬ Absorbs e m) (before : task.id ∈ e.awaited.map Prod.fst)
    (after : task.id ∈ (e.step m).awaited.map Prod.fst) :
    ∃ s' ∈ (e.step m).slots, s'.id = s.id ∧ s'.WillAnswer task := by
  rcases o.slot?_step m s.id with ⟨t, s', ht, hs', hfares⟩ | ⟨hnone, -⟩
  · rw [Engine.slot?_of_mem o.distinct hs] at ht
    obtain rfl := Option.some.inj ht
    rcases h.fares hfares with h | ⟨rest, deed, phase, inbox, busy⟩ | ⟨ending, deed, ended, origin⟩
    · exact ⟨s', (Engine.mem_of_slot? hs').1, hfares.id_eq, h⟩
    · have actor : m.actor? = some s.id := by
        by_contra h
        rw [Engine.deed_eq_other h] at deed
        cases deed
      have hmove := Engine.advance_of_deed actor (Or.inl ⟨_, deed⟩)
      exact absurd (.intro hs hmove phase inbox busy before) free
    · exact absurd after (o.not_awaited_of_report hs deed ended origin)
  · rw [Engine.slot?_of_mem o.distinct hs] at hnone
    cases hnone

/-- The run of an awaited task waits for it, and somebody will answer the task once it was sent. -/
def Engine.Attends (e : Engine) (p : TaskId × Nat) : Prop :=
  ∃ r task, e.runs[p.2]? = some r ∧ r.task? = some task ∧ task.id = p.1 ∧
    (r.stage = .sent task → ∃ s ∈ e.slots, s.id = r.agent ∧ s.WillAnswer task)

/-- Every task that is awaited is attended to. -/
def Engine.Attended (e : Engine) : Prop := ∀ p ∈ e.awaited, e.Attends p

/-- A run waits for one task. -/
theorem Engine.Attends.number_eq {k' : TaskId} {n : Nat} (h : e.Attends (k, n))
    (h' : e.Attends (k', n)) : k = k' := by
  obtain ⟨r, task, hr, htask, rfl, -⟩ := h
  obtain ⟨r', task', hr', htask', rfl, -⟩ := h'
  obtain rfl := Option.some.inj (hr.symm.trans hr')
  rw [Option.some.inj (htask.symm.trans htask')]

/-- A move that leaves the run alone keeps it attended to. -/
theorem Engine.Attends.step {p : TaskId × Nat} (h : e.Attends p) (o : Orderly e)
    (free : ¬ Absorbs e m) (before : p ∈ e.awaited) (after : p ∈ (e.step m).awaited)
    (run : (e.step m).runs[p.2]? = e.runs[p.2]?) : (e.step m).Attends p := by
  obtain ⟨r, task, hr, htask, hnumber, hsent⟩ := h
  refine ⟨r, task, run.trans hr, htask, hnumber, fun stage => ?_⟩
  obtain ⟨s, hs, hid, hanswers⟩ := hsent stage
  have hmem : ∀ {l : List (TaskId × Nat)}, p ∈ l → task.id ∈ l.map Prod.fst := by
    intro l hp
    rw [hnumber]
    exact List.mem_map_of_mem hp
  obtain ⟨s', hs', hid', hanswers'⟩ := hanswers.step o hs free (hmem before) (hmem after)
  exact ⟨s', hs', hid'.trans hid, hanswers'⟩

/-- The steps of agents leave runs alone whose results are still awaited. -/
theorem Engine.Attended.run_of_actor {id : AgentId} (h : e.Attended) (o : Orderly e)
    (actor : m.actor? = some id) {p : TaskId × Nat} (after : p ∈ (e.step m).awaited) :
    p ∈ e.awaited ∧ (e.step m).runs[p.2]? = e.runs[p.2]? := by
  rcases step_of_actor o.distinct actor with ⟨hsame, -⟩ | ⟨s, -, -, hacted⟩
  · rw [hsame] at after ⊢
    exact ⟨after, rfl⟩
  · obtain @⟨mid, errand, -, -, runs, -, awaited, -⟩ := hacted
    rw [awaited] at after
    rw [runs]
    cases errand with
    | answer r =>
      rw [Errand.run, Engine.answerRun_awaited] at after
      obtain ⟨hp, hother⟩ := List.mem_filter.mp after
      have hbefore : p ∈ e.awaited := hp
      refine ⟨hbefore, ((e.swap mid).answerRun_runs r p.2).resolve_right fun hsame => ?_⟩
      have heq := (h p hbefore).number_eq (h _ hsame)
      simp [heq] at hother
    | _ => exact ⟨after, rfl⟩

/-! ### What comes from outside -/

/-- A run that waits for nothing is not the one of an awaited task. -/
theorem Engine.Attends.ne_of_idle {p : TaskId × Nat} {n : Nat} {r : Run} (h : e.Attends p)
    (hr : e.runs[n]? = some r) (idle : r.task? = none) : n ≠ p.2 := by
  rintro rfl
  obtain ⟨r', task, hr', htask, -⟩ := h
  obtain rfl := Option.some.inj (hr.symm.trans hr')
  rw [idle] at htask
  cases htask

/-- A run that is registered waits for its new task. -/
theorem Engine.Attended.registerRun (h : e.Attended) (n : Nat) {p : TaskId × Nat}
    (after : p ∈ (e.registerRun n).awaited) :
    (p ∈ e.awaited ∧ (e.registerRun n).runs[p.2]? = e.runs[p.2]?) ∨ (e.registerRun n).Attends p := by
  unfold Engine.registerRun at after ⊢
  split at after
  · next agent text hrun =>
    rcases List.mem_append.mp after with hp | hp
    · exact Or.inl ⟨hp, Engine.getElem?_setStage_ne _ ((h p hp).ne_of_idle hrun rfl)⟩
    · rw [List.mem_singleton.mp hp]
      refine Or.inr ⟨_, ⟨⟨e.world.nextNumber⟩, text⟩, Engine.getElem?_setStage _ hrun, rfl, rfl, ?_⟩
      intro stage
      cases stage
  · exact Or.inl ⟨after, rfl⟩

/-- The task of a run is sent to an agent that is there. -/
theorem Engine.Attended.dispatchRun (h : e.Attended) (o : Orderly e) (serves : e.Serves)
    (settled : ∀ s ∈ e.slots, s.Settled) (n : Nat) {p : TaskId × Nat}
    (after : p ∈ (e.dispatchRun n).awaited) :
    (p ∈ e.awaited ∧ (e.dispatchRun n).runs[p.2]? = e.runs[p.2]?) ∨ (e.dispatchRun n).Attends p := by
  unfold Engine.dispatchRun at after ⊢
  cases hrun : e.runs[n]? with
  | none =>
    simp only [hrun] at after
    exact Or.inl ⟨after, rfl⟩
  | some r =>
    obtain ⟨agent, text, stage⟩ := r
    cases stage with
    | registered task =>
      obtain ⟨s, hs, rfl, listed⟩ := serves _ (List.mem_of_getElem? hrun) rfl
      have hgoing : s.phase ≠ .stopped := by
        intro hphase
        rw [settled s hs (by rw [hphase]; rfl)] at listed
        cases listed
      have hopen : ((e.slot? s.id).any fun s => s.phase != .stopped) = true := by
        simp [Engine.slot?_of_mem o.distinct hs, hgoing]
      simp only [hrun, hopen, if_true] at after ⊢
      have hbefore : p ∈ e.awaited := after
      by_cases hn : n = p.2
      · subst hn
        obtain ⟨r, task', hr, htask, hnumber, -⟩ := h p hbefore
        obtain rfl := Option.some.inj (hrun.symm.trans hr)
        obtain rfl : task = task' := Option.some.inj htask
        obtain ⟨t, ht, hkeeps, hmail⟩ := (Errand.send s.id (.task none task)).delivers hs
        refine Or.inr ⟨_, task, Engine.getElem?_setStage _ hrun, rfl, hnumber, fun _ => ?_⟩
        exact ⟨t, ht, hkeeps.id_eq, .waits (hmail _ rfl)⟩
      · exact Or.inl ⟨hbefore, Engine.getElem?_setStage_ne _ hn⟩
    | _ =>
      simp only [hrun] at after
      exact Or.inl ⟨after, rfl⟩

/-- **Whatever comes from outside** leaves awaited runs alone or attends to them. -/
theorem Engine.Attended.outside (h : e.Attended) (o : Orderly e) (serves : e.Serves)
    (settled : ∀ s ∈ e.slots, s.Settled) (running : m ≠ .shutdown) (outside : m.actor? = none)
    {p : TaskId × Nat} (after : p ∈ (e.step m).awaited) :
    (p ∈ e.awaited ∧ (e.step m).runs[p.2]? = e.runs[p.2]?) ∨ (e.step m).Attends p := by
  cases m with
  | advance id => cases outside
  | answer id reply => cases outside
  | prompt id text =>
    unfold Engine.step Engine.sendPrompt at after ⊢
    simp only at after ⊢
    split at after
    · next hopen => exact Or.inl ⟨after, by rw [if_pos hopen]; rfl⟩
    · next hgone => exact Or.inl ⟨after, by rw [if_neg hgone]; rfl⟩
  | enterRun id text =>
    have hbefore : p ∈ e.awaited := after
    obtain ⟨r, task, hr, -⟩ := h p hbefore
    have hlt : p.2 < e.runs.length := (List.getElem?_eq_some_iff.mp hr).choose
    exact Or.inl ⟨hbefore, List.getElem?_append_left hlt⟩
  | admitRun n =>
    unfold Engine.step Engine.admitRun at after ⊢
    simp only at after ⊢
    cases hrun : e.runs[n]? with
    | none =>
      simp only [hrun] at after
      exact Or.inl ⟨after, rfl⟩
    | some r =>
      obtain ⟨agent, text, stage⟩ := r
      cases stage with
      | entered =>
        have same : ∀ stage : RunStage, p ∈ (e.setStage n stage).awaited →
            p ∈ e.awaited ∧ (e.setStage n stage).runs[p.2]? = e.runs[p.2]? := by
          intro stage hp
          have hbefore : p ∈ e.awaited := hp
          exact ⟨hbefore, Engine.getElem?_setStage_ne _ ((h p hbefore).ne_of_idle hrun rfl)⟩
        simp only [hrun] at after ⊢
        cases hlisted : e.listed? agent with
        | none =>
          simp only [hlisted] at after ⊢
          exact Or.inl (same _ after)
        | some s =>
          simp only [hlisted] at after ⊢
          split at after
          · next hbusy => exact Or.inl (by rw [if_pos hbusy]; exact same _ after)
          · next hidle => exact Or.inl (by rw [if_neg hidle]; exact same _ after)
      | _ =>
        simp only [hrun] at after
        exact Or.inl ⟨after, rfl⟩
  | registerRun n => exact h.registerRun n after
  | dispatchRun n => exact h.dispatchRun o serves settled n after
  | attachMaster systemRole =>
    have hsame : (e.step (.attachMaster systemRole)).awaited = e.awaited ∧
        (e.step (.attachMaster systemRole)).runs = e.runs := by
      unfold Engine.step Engine.attachMaster
      simp only
      split <;> exact ⟨rfl, rfl⟩
    rw [hsame.1] at after
    rw [hsame.2]
    exact Or.inl ⟨after, rfl⟩
  | setWorld world => exact Or.inl ⟨after, rfl⟩
  | shutdown => exact absurd rfl running

/-- **A move keeps awaited tasks attended to,** unless a busy agent takes one in. -/
theorem Engine.Attended.step (h : e.Attended) (o : Orderly e) (serves : e.Serves)
    (settled : ∀ s ∈ e.slots, s.Settled) (running : m ≠ .shutdown) (free : ¬ Absorbs e m) :
    (e.step m).Attended := by
  intro p after
  have cases : (p ∈ e.awaited ∧ (e.step m).runs[p.2]? = e.runs[p.2]?) ∨ (e.step m).Attends p := by
    cases hactor : m.actor? with
    | none => exact h.outside o serves settled running hactor after
    | some id => exact Or.inl (h.run_of_actor o hactor after)
  rcases cases with ⟨before, run⟩ | hattends
  · exact (h p before).step o free before after run
  · exact hattends

/-- Whoever is attended to can be answered. -/
theorem Engine.Attended.answerable (h : e.Attended) (o : Orderly e) (serves : e.Serves)
    (settled : ∀ s ∈ e.slots, s.Settled) {p : TaskId × Nat} (hp : p ∈ e.awaited) :
    e.Answerable p.1 := by
  obtain ⟨r, task, hr, htask, hnumber, hsent⟩ := h p hp
  have hmem := List.mem_of_getElem? hr
  obtain ⟨t, ht, hid, listed⟩ := serves r hmem (by rw [htask]; rfl)
  cases hstage : r.stage with
  | registered task' =>
    rw [Run.task?, hstage] at htask
    obtain rfl := Option.some.inj htask
    exact .unsent hmem hstage hnumber
  | sent task' =>
    rw [Run.task?, hstage] at htask
    obtain rfl := Option.some.inj htask
    obtain ⟨s, hs, hid', hanswers⟩ := hsent hstage
    obtain rfl := Engine.eq_of_id_eq o.distinct hs ht (hid.trans hid'.symm)
    refine .taken hs ?_ hanswers hnumber
    rintro (hoff | hphase)
    · rw [hoff] at listed
      cases listed
    · rw [settled t hs (by rw [hphase]; rfl)] at listed
      cases listed
  | _ =>
    rw [Run.task?, hstage] at htask
    cases htask

/-! ### A task that is lost -/

/-- An answerable task is on its way or held. -/
theorem Engine.Answerable.count (h : e.Answerable k) : 0 < e.onWay.count k + e.held.count k := by
  cases h with
  | @unsent r task mem stage number =>
    have hway : k ∈ e.onWay := by
      refine List.mem_append_right _ (List.mem_flatMap.mpr ⟨r, mem, ?_⟩)
      simp [Run.unsent, stage, number]
    have hpos := List.count_pos_iff.mpr hway
    omega
  | @taken s task mem live answers number =>
    cases answers with
    | waits inbox =>
      have hway : k ∈ e.onWay := by
        refine List.mem_append_left _ (List.mem_flatMap.mpr ⟨s, mem, List.mem_append_left _ ?_⟩)
        exact List.mem_filterMap.mpr ⟨_, inbox, congrArg some number⟩
      have hpos := List.count_pos_iff.mpr hway
      omega
    | works held origin =>
      have hheld : k ∈ e.held := by
        refine List.mem_flatMap.mpr ⟨s, mem, List.mem_append_left _ ?_⟩
        simp [held, number]
      have hpos := List.count_pos_iff.mpr hheld
      omega
    | @reports ending pending ended origin =>
      have hheld : k ∈ e.held := by
        refine List.mem_flatMap.mpr ⟨s, mem, List.mem_append_right _ ?_⟩
        exact List.mem_filterMap.mpr ⟨_, pending, by simp [Effect.ended?, ended, number]⟩
      have hpos := List.count_pos_iff.mpr hheld
      omega

/-- A busy agent that takes in a task takes it off its way. -/
theorem count_onWay_absorbed {rest : List Envelope} (distinct : e.ids.Nodup) (hs : s ∈ e.slots)
    (phase : s.phase = .delivering) (inbox : s.inbox = .task none task :: rest) :
    (e.step (.advance s.id)).awaited = e.awaited ∧
      (e.step (.advance s.id)).onWay.count task.id + 1 = e.onWay.count task.id := by
  obtain ⟨mid, hmid⟩ : ∃ mid : Slot, mid = { s with
    agent := s.agent.receive (.task none task) e.world.now
    inbox := rest } := ⟨_, rfl⟩
  have hid : mid.id = s.id := by
    rw [hmid]
    exact (Acts.heard (e := e) phase inbox).id_eq
  have hstep : e.step (.advance s.id) = e.swap mid := by
    rw [Engine.step_advance distinct hs, Engine.stepSlot?, phase, inbox]
    rw [hmid] at hid ⊢
    exact Engine.modifySlot_eq_swap distinct hs hid
  have hslots := count_swap (k := task.id) Slot.onWay distinct hs hid
  have hown : s.onWay.count task.id = mid.onWay.count task.id + 1 := by
    rw [hmid]
    simp [Slot.onWay, phase, inbox, Envelope.task?]
  have hruns : (e.swap mid).runs = e.runs := rfl
  rw [hstep]
  simp only [Engine.onWay, List.count_append, hruns]
  exact ⟨rfl, by omega⟩

/-- **Behind a move that absorbs a task nobody will answer it,** though it is still awaited. -/
theorem Launched.not_answerable_of_absorbs (launched : Launched e) (ran : List Move)
    (absorbs : Absorbs (e.follow ran) m) :
    ∃ p ∈ (e.follow (ran ++ [m])).awaited, ¬ (e.follow (ran ++ [m])).Answerable p.1 := by
  obtain @⟨s, task, rest, mem, rfl, phase, inbox, busy, awaited⟩ := absorbs
  have o := launched.orderly.follow ran
  obtain ⟨hawaited, hway⟩ := count_onWay_absorbed o.distinct mem phase inbox
  obtain ⟨p, hp, hnumber⟩ := List.mem_map.mp awaited
  refine ⟨p, ?_, fun h => ?_⟩
  · rw [Engine.follow_concat, hawaited]
    exact hp
  · -- the number was on its way once, and nobody had taken it on
    have honce := (launched.counted ran task.id).once
    have hheld := (launched.counted (ran ++ [.advance s.id]) task.id).held
    have hdeed : (e.follow ran).deed (.advance s.id) s.id = .hear (.task none task) := by
      rw [Engine.deed_advance o.distinct mem, Slot.stride, phase, inbox]
      rfl
    have hquiet : (e.follow ran).activated? (.advance s.id) = none := by
      rw [(Engine.activated?_of_actor o.distinct mem rfl).1, hdeed]
      simp [Slot.activation?, busy]
    have hpos := h.count
    rw [Engine.activations_concat, hquiet, List.count_append] at hheld
    simp only [taskOf, Option.map_none, Option.toList_none, List.count_nil] at hheld
    rw [hnumber] at hpos
    rw [Engine.follow_concat] at hheld hpos
    omega

/-! ### Runs -/

/-- **The results that runs wait for,** as long as the engine is not shut down and the agents of runs
that wait stay listed: in all states of a run somebody will answer each awaited task, exactly if no
busy agent takes one in. -/
theorem answerable_iff_unabsorbed (launched : Launched e) {moves : List Move}
    (running : .shutdown ∉ moves) (serves : ∀ ran, ran <+: moves → (e.follow ran).Serves) :
    (∀ ran, ran <+: moves → ∀ p ∈ (e.follow ran).awaited, (e.follow ran).Answerable p.1) ↔
      ∀ ran m, ran ++ [m] <+: moves → ¬ Absorbs (e.follow ran) m := by
  have o := launched.orderly
  have runs : ∀ {ran}, ran <+: moves → .shutdown ∉ ran := fun hran h => running (hran.subset h)
  constructor
  · intro h ran m hran absorbs
    obtain ⟨p, hp, hlost⟩ := launched.not_answerable_of_absorbs ran absorbs
    exact hlost (h _ hran p hp)
  · intro free ran hran
    have attended : (e.follow ran).Attended := by
      induction ran using List.reverseRecOn with
      | nil =>
        have hnone : e.awaited = [] := by cases launched; rfl
        intro p hp
        have hp' : p ∈ e.awaited := hp
        rw [hnone] at hp'
        cases hp'
      | append_singleton ran m ih =>
        have hbefore := (List.prefix_append ran [m]).trans hran
        have hm : m ≠ .shutdown := by
          rintro rfl
          exact runs hran (List.mem_append_right _ (List.mem_singleton.mpr rfl))
        rw [Engine.follow_concat]
        exact (ih hbefore).step (o.follow ran) (serves ran hbefore)
          (fun s hs => launched.settled (runs hbefore) hs) hm (free ran m hran)
    intro p hp
    exact attended.answerable (o.follow ran) (serves ran hran)
      (fun s hs => launched.settled (runs hran) hs) hp

/-! ### Two runs for one agent -/

/-- The coder is idle when two runs look at it. Both tasks are sent; the coder takes on the first one,
takes in the second one as a prompt, and ends its task. -/
def shedRace : List Move :=
  [Move.enterRun ⟨1⟩ "one", .enterRun ⟨1⟩ "two", .admitRun 0, .admitRun 1,
    .registerRun 0, .registerRun 1, .dispatchRun 0, .dispatchRun 1] ++
  List.replicate 5 (Move.advance ⟨1⟩) ++
  [Move.answer ⟨1⟩ (.ok "FINISH PROMPT=\"did both\"")] ++ List.replicate 3 (Move.advance ⟨1⟩)

theorem shedRace_serves (ran : List Move) (hran : ran <+: shedRace) :
    (shedStart.follow ran).Serves := by
  have hall : ∀ ran ∈ shedRace.inits, (shedStart.follow ran).Serves := by decide +kernel
  exact hall ran ((List.mem_inits ran shedRace).mpr hran)

/-- The result of the second run is awaited, and its task is nowhere. -/
theorem shedRace_lost : (⟨3⟩, 1) ∈ (shedStart.follow shedRace).awaited ∧
    ¬ (shedStart.follow shedRace).Answerable ⟨3⟩ := by
  have hcount : (⟨3⟩, 1) ∈ (shedStart.follow shedRace).awaited ∧
      (shedStart.follow shedRace).onWay.count ⟨3⟩ +
        (shedStart.follow shedRace).held.count ⟨3⟩ = 0 := by
    decide +kernel
  exact ⟨hcount.1, fun h => absurd hcount.2 (Nat.ne_of_gt h.count)⟩

/-- So the coder has absorbed it. -/
theorem answerable_iff_unabsorbed_shed : Launched shedStart ∧ Move.shutdown ∉ shedRace ∧
    (∀ ran, ran <+: shedRace → (shedStart.follow ran).Serves) ∧
    ∃ ran m, ran ++ [m] <+: shedRace ∧ Absorbs (shedStart.follow ran) m := by
  have running : Move.shutdown ∉ shedRace := by simp [shedRace]
  refine ⟨shed_launched, running, shedRace_serves, ?_⟩
  by_contra hnone
  have hall := (answerable_iff_unabsorbed shed_launched running shedRace_serves).mpr
    fun ran m hran absorbs => hnone ⟨ran, m, hran, absorbs⟩
  exact shedRace_lost.2 (hall shedRace List.prefix_rfl _ shedRace_lost.1)

/-- Behind the race the first run has its result and every agent waits with an empty inbox. The
second run still waits, and nobody will answer it. -/
theorem shed_run_unanswered : Launched shedStart ∧ Move.shutdown ∉ shedRace ∧
    (∀ ran, ran <+: shedRace → (shedStart.follow ran).Serves) ∧
    ((shedStart.follow shedRace).runs.map Run.stage)[0]? = some (.finished "did both") ∧
    (∀ s ∈ (shedStart.follow shedRace).slots, s.phase = .waiting ∧ s.inbox = []) ∧
    (⟨3⟩, 1) ∈ (shedStart.follow shedRace).awaited ∧
    ¬ (shedStart.follow shedRace).Answerable ⟨3⟩ := by
  have hrest : ((shedStart.follow shedRace).runs.map Run.stage)[0]? =
        some (.finished "did both") ∧
      ∀ s ∈ (shedStart.follow shedRace).slots, s.phase = .waiting ∧ s.inbox = [] := by
    decide +kernel
  exact ⟨shed_launched, by simp [shedRace], shedRace_serves, hrest.1, hrest.2, shedRace_lost⟩

end Arbor
