import Arbor.Proofs.Engine.Tasks

/-! # What those on the list of those at work owe

An agent waits, and may not end its task, as long as somebody is on its list of those at work. That
is sound in *backed* states: whoever is on the list owes the agent a report. The debt is a task that
is being handed over, a task in the inbox or in hand, the end of a task that is yet to be reported,
or a report that is yet to be taken in. A task that reaches a busy agent is taken in as a prompt and
loses its sender, so the debt is gone unless something else is owed: the move *strands* the sender.

* `backed_iff_unstranded`: all states of a run are backed exactly if no move of it strands anybody,
  and then nobody waits or goes on for one who owes it nothing. -/

namespace Arbor

open Directive Turn

/-- The effect hands a task to `c`. -/
def Effect.handsTo (c : AgentId) : Effect → Bool
  | .delegate child _ => child = c
  | _ => false

/-- The effect reports the end of a task of `p`. -/
def Effect.reportsTo (p : AgentId) : Effect → Bool
  | .finish ending => ending.task.isSome && ending.origin = some p
  | _ => false

/-- The envelope holds a report of `c`. -/
def Envelope.isReportOf (c : AgentId) : Envelope → Bool
  | .report r => r.sender = c
  | _ => false

instance (s : Slot) : Decidable s.Closed :=
  inferInstanceAs (Decidable (s.listed = false ∨ s.phase = .stopped))

/-- **What `c` can owe `p`.** -/
inductive Owes (p c : Slot) : Prop where
  /-- `p` is yet to hand it a task. -/
  | handing {effect : Effect} (pending : effect ∈ p.phase.pending) (hands : effect.handsTo c.id)
  /-- It works on a task of `p`, or has one in its inbox. -/
  | works (works : c.WorksFor p.id)
  /-- It has ended a task of `p` and is yet to report that. -/
  | ended {effect : Effect} (pending : effect ∈ c.phase.pending) (reports : effect.reportsTo p.id)
  /-- `p` is yet to take in a report of it. -/
  | reported {envelope : Envelope} (inbox : envelope ∈ p.inbox)
      (report : envelope.isReportOf c.id)

instance (p c : Slot) : Decidable (Owes p c) :=
  decidable_of_iff ((∃ x ∈ p.phase.pending, x.handsTo c.id) ∨ c.WorksFor p.id ∨
      (∃ x ∈ c.phase.pending, x.reportsTo p.id) ∨ ∃ x ∈ p.inbox, x.isReportOf c.id) <| by
    constructor
    · rintro (⟨x, hx, h⟩ | h | ⟨x, hx, h⟩ | ⟨x, hx, h⟩)
      · exact .handing hx h
      · exact .works h
      · exact .ended hx h
      · exact .reported hx h
    · rintro (⟨hx, h⟩ | h | ⟨hx, h⟩ | ⟨hx, h⟩)
      · exact Or.inl ⟨_, hx, h⟩
      · exact Or.inr (Or.inl h)
      · exact Or.inr (Or.inr (Or.inl ⟨_, hx, h⟩))
      · exact Or.inr (Or.inr (Or.inr ⟨_, hx, h⟩))

namespace Engine

/-- Whoever is on the list of a live agent owes it something. -/
def Backed (e : Engine) : Prop :=
  ∀ p ∈ e.slots, ¬ p.Closed → ∀ id ∈ p.handedTo, ∃ c ∈ e.slots, c.id = id ∧ Owes p c

instance (e : Engine) : Decidable e.Backed :=
  inferInstanceAs (Decidable (∀ p ∈ e.slots, ¬ p.Closed → ∀ id ∈ p.handedTo,
    ∃ c ∈ e.slots, c.id = id ∧ Owes p c))

/-- Somebody on the list of `p` owes it something. -/
def OwedTo (e : Engine) (p : Slot) : Prop := ∃ c ∈ e.slots, c.id ∈ p.handedTo ∧ Owes p c

/-- A live agent waits for children, and may not end its task for their sake, only if it is owed
something. -/
def Grounded (e : Engine) : Prop :=
  ∀ p ∈ e.slots, ¬ p.Closed → ∀ (k : Dialect) (d : Desk), d.agent.books = p.agent.books →
    (∀ step, ((perform e.project (.wait : Directive k)).run d).1 = .ok step →
      p.agent.helpers = [] → e.OwedTo p) ∧
    ∀ text error, ((perform e.project (.finish text : Directive k)).run d).1 = .error error →
      (error = .rootActive ∨ ∃ n, error = .childrenActive n) → e.OwedTo p

end Engine

/-- **The move strands a live agent:** a child on its list is busy and takes in its task as a prompt,
and nothing else is owed. -/
inductive Strands (e : Engine) (m : Move) : Prop where
  | intro {p c : Slot} {task : Task} {rest : List Envelope} (parent : p ∈ e.slots)
      (child : c ∈ e.slots) (live : ¬ p.Closed) (listed : c.id ∈ p.handedTo)
      (move : m = .advance c.id) (phase : c.phase = .delivering)
      (inbox : c.inbox = .task (some p.id) task :: rest) (busy : c.agent.isActive = true)
      (last : ¬ Owes p { c with inbox := rest })

variable {e e' : Engine} {m : Move} {s mid p c : Slot} {deed : Deed} {errand : Errand} {n : Nat}

/-! ### Helpers have no children -/

/-- A helper has neither children nor anybody on its list. -/
def Slot.Spare (s : Slot) : Prop :=
  s.agent.kind.isHelper = true → s.agent.children = [] ∧ s.handedTo = []

theorem Slot.Spare.of_books {s' : Slot} (h : s.Spare) (books : s'.agent.books = s.agent.books) :
    s'.Spare := by
  intro hk
  have hkind : s'.agent.kind = s.agent.kind := congrArg Books.kind books
  rw [hkind] at hk
  exact ⟨(congrArg Books.children books).trans (h hk).1,
    (congrArg Books.handedTo books).trans (h hk).2⟩

theorem dialect_of_isHelper {kind : Kind} (h : kind.isHelper = true) : kind.dialect = .coder := by
  cases kind with
  | helper kind => rfl
  | _ => cases h

theorem Acts.spare (h : Acts e s deed mid errand n) (spare : s.Spare) : mid.Spare := by
  cases h with
  | @heard envelope rest phase inbox =>
    have hbooks := s.agent.books_receive envelope e.world.now
    intro hk
    have hk' : s.agent.kind.isHelper = true := by
      rw [← show (s.agent.receive envelope e.world.now).kind = s.agent.kind from
        (congrArg Books.kind hbooks).trans (s.agent.books.receive_kind envelope)]
      exact hk
    refine ⟨?_, List.eq_nil_iff_forall_not_mem.mpr fun c hc => ?_⟩
    · exact (s.agent.receive_children envelope e.world.now).trans (spare hk').1
    · rw [Slot.handedTo, hbooks] at hc
      have hold : c ∈ s.handedTo := Books.mem_handedTo_of_receive hc
      rw [(spare hk').2] at hold
      cases hold
  | began phase begun =>
    obtain ⟨-, -, rfl⟩ := begin_eq_some begun
    exact spare
  | @completed call prompt response deadline done phase complete =>
    have hbooked := booked_of_completed complete
    obtain rfl := complete
    intro hk
    have hk' : s.agent.kind.isHelper = true := by
      rw [← show _ = s.agent.kind from hbooked.kind_eq]
      exact hk
    have hchildren := (spare hk').1
    refine ⟨(complete_children (d := ⟨{ s.agent with failures := 0 }, e.world⟩) e.project prompt
      response (dialect_of_isHelper hk')).trans hchildren, ?_⟩
    refine List.eq_nil_iff_forall_not_mem.mpr fun c hc => ?_
    rcases hbooked.handedTo_cases hc with hc | ⟨⟨entry, link, hget, -⟩, -⟩
    · have hold : c ∈ s.handedTo := hc
      rw [(spare hk').2] at hold
      cases hold
    · have hget' : s.agent.children.get? entry = some link := hget
      rw [hchildren] at hget'
      cases hget'
  | despaired turn many gives => cases gives <;> exact spare
  | abandoned phase gives => cases gives <;> exact spare
  | @missed child task rest retiring phase gone =>
    intro hk
    refine ⟨(spare hk).1, List.eq_nil_iff_forall_not_mem.mpr fun c hc => ?_⟩
    have hold : c ∈ s.handedTo := ((Books.mem_handedTo_dismiss (b := s.agent.books)).mp hc).1
    rw [(spare hk).2] at hold
    cases hold
  | _ => exact spare

theorem Slot.IsNewborn.handedTo (h : s.IsNewborn) : s.handedTo = [] := by
  rw [Slot.handedTo, Books.handedTo, Agent.books, h.unused.delegated]
  rfl

/-- **Along every run helpers have no children.** -/
theorem Launched.spare (launched : Launched e) (moves : List Move)
    (hs : s ∈ (e.follow moves).slots) : s.Spare := by
  refine launched.slots_follow (P := fun _ s => s.Spare) ?new ?step moves s hs
  case new =>
    intro ran s idle newborn hk
    exact ⟨newborn.childless hk, newborn.handedTo⟩
  case step =>
    intro ran m s hs s' fares spare
    cases fares with
    | idle deed keeps => exact spare.of_books keeps.books
    | acts acts keeps => exact (acts.spare spare).of_books keeps.books

/-! ### What others do -/

theorem Slot.WorksFor.keeps {s' : Slot} {id : AgentId} (h : s.WorksFor id) (keeps : s.Keeps s') :
    s'.WorksFor id := by
  rcases h with ⟨hactive, horigin⟩ | ⟨task, ht⟩
  · refine Or.inl ⟨?_, (congrArg Books.origin keeps.books).trans horigin⟩
    exact (congrArg (fun b => b.task.isSome) keeps.books).trans hactive
  · exact Or.inr ⟨task, keeps.mem_inbox ht⟩

theorem Owes.keeps {p' c' : Slot} (h : Owes p c) (parent : p.Keeps p') (child : c.Keeps c') :
    Owes p' c' := by
  cases h with
  | handing pending hands =>
    rw [← parent.phase] at pending
    rw [← child.id_eq] at hands
    exact .handing pending hands
  | works works =>
    rw [← parent.id_eq] at works
    exact .works (works.keeps child)
  | ended pending reports =>
    rw [← child.phase] at pending
    rw [← parent.id_eq] at reports
    exact .ended pending reports
  | reported inbox report =>
    rw [← child.id_eq] at report
    exact .reported (parent.mem_inbox inbox) report

/-- What others do to the slots, and a new slot with nobody on its list. -/
theorem Engine.Backed.of_keeps (h : e.Backed)
    (back : ∀ p' ∈ e'.slots, (∃ p ∈ e.slots, p.Keeps p') ∨ p'.handedTo = [])
    (forth : ∀ c ∈ e.slots, ∃ c' ∈ e'.slots, c.Keeps c') : e'.Backed := by
  intro p' hp' live id hid
  rcases back p' hp' with ⟨p, hp, hkeeps⟩ | hnone
  · rw [hkeeps.handedTo] at hid
    obtain ⟨c, hc, rfl, howes⟩ := h p hp (fun closed => live (hkeeps.closed closed)) id hid
    obtain ⟨c', hc', hkeeps'⟩ := forth c hc
    exact ⟨c', hc', hkeeps'.id_eq, howes.keeps hkeeps hkeeps'⟩
  · rw [hnone] at hid
    cases hid

/-! ### What a step of an agent does -/

/-- An agent that takes a step has not stopped. -/
theorem Acts.going (h : Acts e s deed mid errand n) : s.phase ≠ .stopped := by
  cases h with
  | passed passes => exact passes.going
  | retried turn few => exact turn.going
  | despaired turn many gives => exact turn.going
  | reported phase => rcases phase with phase | ⟨call, doc, phase⟩ <;> simp [phase]
  | _ => simp [*]

theorem Acts.closed (h : Acts e s deed mid errand n) (closed : s.Closed) : mid.Closed := by
  have hlisted := closed.resolve_right h.going
  cases h with
  | reported phase => exact Or.inl (by simp [Slot.concluded, hlisted])
  | _ => exact Or.inl hlisted

/-- The first effect is struck off: who is handed a task finds it in its inbox or is struck off the
list, and who hears of the end of a task is sent a report. -/
inductive Strikes (e : Engine) (s mid : Slot) (errand : Errand) : Effect → Prop where
  | missed {child : AgentId} {task : Task} (struck : child ∉ mid.handedTo) :
      Strikes e s mid errand (.delegate child task)
  | handed {child : AgentId} {task : Task} (sent : errand = .send child (.task (some s.id) task)) :
      Strikes e s mid errand (.delegate child task)
  | started {helper : AgentId} {kind : HelperKind} {prompt : String} {scratch : Scratch} :
      Strikes e s mid errand (.spawn helper kind prompt scratch)
  | adopted {child : AgentId} {kind : Kind} {path : Path} :
      Strikes e s mid errand (.adopt child kind path)
  | released {child : AgentId} : Strikes e s mid errand (.release child)
  | reported {ending : Ending}
      (sent : errand = (ending.report? s).elim .none (Report.errand (e.swap mid))) :
      Strikes e s mid errand (.finish ending)

/-- What a step does to the effects that are left. -/
theorem Acts.pending_cases (h : Acts e s deed mid errand n) :
    mid.phase.pending = s.phase.pending ∨ s.phase.pending = [] ∨
      ∃ effect, s.phase.pending = effect :: mid.phase.pending ∧ Strikes e s mid errand effect := by
  cases h with
  | passed passes => exact Or.inl passes.pending
  | heard phase inbox => exact Or.inl rfl
  | retried turn few => exact Or.inr (Or.inl turn.idle)
  | despaired turn many gives => exact Or.inr (Or.inl turn.idle)
  | missed phase gone =>
    refine Or.inr (Or.inr ⟨_, by rw [phase]; rfl, .missed fun hc => ?_⟩)
    exact ((Books.mem_handedTo_dismiss (b := s.agent.books)).mp hc).2 rfl
  | handed phase accepts => exact Or.inr (Or.inr ⟨_, by rw [phase]; rfl, .handed rfl⟩)
  | started phase => exact Or.inr (Or.inr ⟨_, by rw [phase]; rfl, .started⟩)
  | adopted phase => exact Or.inr (Or.inr ⟨_, by rw [phase]; rfl, .adopted⟩)
  | released phase subtree => exact Or.inr (Or.inr ⟨_, by rw [phase]; rfl, .released⟩)
  | @reported ending rest retiring phase =>
    exact Or.inr (Or.inr ⟨.finish ending, Slot.pending_of_ending phase, .reported rfl⟩)
  | _ => exact Or.inr (Or.inl (by simp [*]))

/-- Whoever is new on the list is a child that is about to be handed a task. -/
theorem Acts.handedTo_cases (h : Acts e s deed mid errand n) {id : AgentId}
    (hid : id ∈ mid.handedTo) :
    id ∈ s.handedTo ∨ (s.Heads id ∧ s.newcomers = [] ∧
      ∃ effect ∈ mid.phase.pending, effect.handsTo id) := by
  cases h with
  | @heard envelope rest phase inbox =>
    rw [Slot.handedTo, s.agent.books_receive] at hid
    exact Or.inl (Books.mem_handedTo_of_receive hid)
  | began phase begun =>
    obtain ⟨-, -, rfl⟩ := begin_eq_some begun
    exact Or.inl hid
  | @completed call prompt response deadline done phase complete =>
    rcases (booked_of_completed complete).handedTo_cases hid with hid | ⟨hchild, task, hm⟩
    · exact Or.inl hid
    · exact Or.inr ⟨hchild, by simp [Slot.newcomers, phase], _, hm, by simp [Effect.handsTo]⟩
  | despaired turn many gives => cases gives <;> exact Or.inl hid
  | abandoned phase gives => cases gives <;> exact Or.inl hid
  | missed phase gone =>
    exact Or.inl ((Books.mem_handedTo_dismiss (b := s.agent.books)).mp hid).1
  | _ => exact Or.inl hid

/-- A task that is to be handed over is handed over or stays, or the child is struck off. -/
theorem Acts.handing_kept (h : Acts e s deed mid errand n) {effect : Effect} {id : AgentId}
    (pending : effect ∈ s.phase.pending) (hands : effect.handsTo id) :
    (∃ effect ∈ mid.phase.pending, effect.handsTo id) ∨
      (∃ task, errand = .send id (.task (some s.id) task)) ∨ id ∉ mid.handedTo := by
  rcases h.pending_cases with hsame | hnone | ⟨first, hfirst, hstrikes⟩
  · exact Or.inl ⟨effect, hsame ▸ pending, hands⟩
  · rw [hnone] at pending
    cases pending
  rw [hfirst] at pending
  rcases List.mem_cons.mp pending with rfl | hrest
  · cases hstrikes with
    | @missed child task struck =>
      obtain rfl : child = id := by simpa [Effect.handsTo] using hands
      exact Or.inr (Or.inr struck)
    | @handed child task sent =>
      obtain rfl : child = id := by simpa [Effect.handsTo] using hands
      exact Or.inr (Or.inl ⟨task, sent⟩)
    | started => cases hands
    | adopted => cases hands
    | released => cases hands
    | reported sent => cases hands
  · exact Or.inl ⟨effect, hrest, hands⟩

/-- The end of a task that is to be reported is reported or stays. -/
theorem Acts.ended_kept (h : Acts e s deed mid errand n) {effect : Effect} {id : AgentId}
    (pending : effect ∈ s.phase.pending) (reports : effect.reportsTo id) :
    (∃ effect ∈ mid.phase.pending, effect.reportsTo id) ∨
      ∃ r : Report, r.sender = s.id ∧ r.recipient = some id ∧
        errand = r.errand (e.swap mid) := by
  rcases h.pending_cases with hsame | hnone | ⟨first, hfirst, hstrikes⟩
  · exact Or.inl ⟨effect, hsame ▸ pending, reports⟩
  · rw [hnone] at pending
    cases pending
  rw [hfirst] at pending
  rcases List.mem_cons.mp pending with rfl | hrest
  · cases hstrikes with
    | missed struck => cases reports
    | handed sent => cases reports
    | started => cases reports
    | adopted => cases reports
    | released => cases reports
    | @reported ending sent =>
      obtain ⟨htask, horigin⟩ : ending.task.isSome = true ∧ ending.origin = some id := by
        simpa [Effect.reportsTo] using reports
      obtain ⟨task, htask⟩ := Option.isSome_iff_exists.mp htask
      rw [Ending.report?, htask] at sent
      exact Or.inr ⟨_, rfl, horigin, sent⟩
  · exact Or.inl ⟨effect, hrest, reports⟩

/-- Work for another agent stays or ends with a report, or a task is taken in as a prompt. -/
theorem Acts.worksFor_kept (h : Acts e s deed mid errand n) {id : AgentId} (works : s.WorksFor id) :
    mid.WorksFor id ∨ (∃ effect ∈ mid.phase.pending, effect.reportsTo id) ∨
      ∃ task rest, deed = .hear (.task (some id) task) ∧ s.phase = .delivering ∧
        s.inbox = .task (some id) task :: rest ∧ s.agent.isActive = true ∧
        mid = { s with
          agent := s.agent.receive (.task (some id) task) e.world.now
          inbox := rest } := by
  rcases works with ⟨hactive, horigin⟩ | ⟨task, ht⟩
  · cases h.taskChange with
    | stays quiet task origin completed =>
      refine Or.inl (Or.inl ⟨?_, ?_⟩)
      · rw [Agent.isActive, task]
        exact hactive
      · rw [origin (Option.isSome_iff_ne_none.mp hactive)]
        exact horigin
    | starts activated idle delivered task origin completed =>
      rw [Agent.isActive, idle] at hactive
      cases hactive
    | @ends task ending quiet held idle completed reports ended origin =>
      refine Or.inr (Or.inl ⟨.finish ending, ?_, ?_⟩)
      · rw [reports]
        exact List.mem_cons_self
      · simp [Effect.reportsTo, ended, origin, horigin]
  · rcases h.inbox_cases with hsame | ⟨envelope, rest, hdeed, hphase, hinbox, hmid⟩
    · exact Or.inl (Or.inr ⟨task, hsame ▸ ht⟩)
    rw [hinbox] at ht
    rcases List.mem_cons.mp ht with rfl | hrest
    · by_cases hactive : s.agent.isActive = true
      · exact Or.inr (Or.inr ⟨task, rest, hdeed, hphase, hinbox, hactive, hmid⟩)
      · cases h.taskChange with
        | stays quiet task' origin completed => simp [hdeed, Slot.activation?, hactive] at quiet
        | starts activated idle delivered task' origin completed =>
          rw [hinbox] at delivered
          cases delivered
          exact Or.inl (Or.inl ⟨by rw [Agent.isActive, task']; rfl, origin⟩)
        | ends quiet held idle completed reports ended origin =>
          simp [hdeed, Slot.activation?, hactive] at quiet
    · refine Or.inl (Or.inr ⟨task, ?_⟩)
      rw [hmid]
      exact hrest

/-- A report stays in the inbox, or its sender is struck off. -/
theorem Acts.report_kept (h : Acts e s deed mid errand n) (spare : s.Spare) {envelope : Envelope}
    {id : AgentId} (inbox : envelope ∈ s.inbox) (report : envelope.isReportOf id) :
    envelope ∈ mid.inbox ∨ id ∉ mid.handedTo := by
  rcases h.inbox_cases with hsame | ⟨first, rest, -, -, hinbox, rfl⟩
  · exact Or.inl (hsame ▸ inbox)
  rw [hinbox] at inbox
  rcases List.mem_cons.mp inbox with rfl | hrest
  · refine Or.inr ?_
    cases envelope with
    | report r =>
      obtain rfl : r.sender = id := by simpa [Envelope.isReportOf] using report
      rw [Slot.handedTo, s.agent.books_receive]
      cases hk : s.agent.kind.isHelper with
      | false => exact Books.sender_not_mem_handedTo hk r
      | true =>
        intro hc
        have hold : r.sender ∈ s.handedTo := Books.mem_handedTo_of_receive hc
        rw [(spare hk).2] at hold
        cases hold
    | plain text => cases report
    | task sender task => cases report
  · exact Or.inl hrest

/-! ### Debts over a step -/

/-- The slot of an agent when `mid` is put in the place of the one of the same agent. -/
def Slot.standIn (mid t : Slot) : Slot := if t.id = mid.id then mid else t

theorem Slot.standIn_id (mid t : Slot) : (mid.standIn t).id = t.id := by
  unfold Slot.standIn
  split
  · next h => exact h.symm
  · rfl

/-- Either it is the actor's slot that changes or another one that does not. -/
theorem Slot.standIn_cases {t : Slot} (distinct : e.ids.Nodup) (hs : s ∈ e.slots)
    (id : mid.id = s.id) (ht : t ∈ e.slots) :
    (t = s ∧ mid.standIn t = mid) ∨ mid.standIn t = t := by
  unfold Slot.standIn
  rw [id]
  split
  · next h => exact Or.inl ⟨Engine.eq_of_id_eq distinct hs ht h, rfl⟩
  · exact Or.inr rfl

/-- A busy agent takes in a task as a prompt. -/
theorem books_receive_busy {a : Agent} (busy : a.isActive = true) (sender : Option AgentId)
    (task : Task) (now : Nat) : (a.receive (.task sender task) now).books = a.books := by
  rw [a.books_receive, Books.receive, if_pos (show a.books.task.isSome = true from busy)]

/-- What is owed once a busy agent has taken in a task: what is owed without the task. -/
theorem owes_heard {sender : Option AgentId} {task : Task} {rest : List Envelope} {now : Nat}
    (distinct : e.ids.Nodup) (hp : p ∈ e.slots) (hc : c ∈ e.slots)
    (inbox : c.inbox = .task sender task :: rest) (busy : c.agent.isActive = true)
    (heard : mid = { c with agent := c.agent.receive (.task sender task) now, inbox := rest }) :
    Owes (mid.standIn p) mid ↔ Owes p { c with inbox := rest } := by
  have hbooks : mid.agent.books = c.agent.books := by
    rw [heard]
    exact books_receive_busy busy sender task now
  have hid : mid.id = c.id := congrArg Books.id hbooks
  have hworks : mid.WorksFor p.id ↔ ({ c with inbox := rest } : Slot).WorksFor p.id := by
    have hinbox : mid.inbox = rest := by rw [heard]
    have htask : mid.agent.task = c.agent.task := congrArg Books.task hbooks
    have horigin : mid.agent.origin = c.agent.origin := congrArg Books.origin hbooks
    simp only [Slot.WorksFor, hinbox, Agent.isActive, htask, horigin]
  have hphase : (mid.standIn p).phase = p.phase := by
    rcases Slot.standIn_cases distinct hc hid hp with ⟨rfl, hmid⟩ | hsame
    · rw [hmid, heard]
    · rw [hsame]
  have hreport : ∀ envelope : Envelope, envelope.isReportOf c.id →
      (envelope ∈ (mid.standIn p).inbox ↔ envelope ∈ p.inbox) := by
    intro envelope hr
    rcases Slot.standIn_cases distinct hc hid hp with ⟨rfl, hmid⟩ | hsame
    · rw [hmid, heard, inbox, List.mem_cons]
      refine ⟨Or.inr, fun h => h.resolve_left ?_⟩
      rintro rfl
      cases hr
    · rw [hsame]
  constructor
  · rintro (⟨pending, hands⟩ | works | ⟨pending, reports⟩ | ⟨inbox, report⟩)
    · rw [hphase] at pending
      rw [hid] at hands
      exact .handing pending hands
    · rw [mid.standIn_id] at works
      exact .works (hworks.mp works)
    · rw [heard] at pending
      rw [mid.standIn_id] at reports
      exact .ended pending reports
    · rw [hid] at report
      exact .reported ((hreport _ report).mp inbox) report
  · rintro (⟨pending, hands⟩ | works | ⟨pending, reports⟩ | ⟨inbox, report⟩)
    · rw [← hphase] at pending
      exact .handing pending (hid.symm ▸ hands)
    · exact .works ((mid.standIn_id p).symm ▸ hworks.mpr works)
    · refine .ended ?_ ((mid.standIn_id p).symm ▸ reports)
      rw [heard]
      exact pending
    · exact .reported ((hreport _ report).mpr inbox) (hid.symm ▸ report)

/-- **What becomes of a debt in a step:** it stays, or an envelope is sent that carries it on. -/
theorem Acts.owes (h : Acts e s (e.deed m s.id) mid errand n) (actor : m.actor? = some s.id)
    (distinct : e.ids.Nodup) (spare : p.Spare) (free : ¬ Strands e m) (hs : s ∈ e.slots)
    (hp : p ∈ e.slots) (hc : c ∈ e.slots) (live : ¬ (mid.standIn p).Closed)
    (alive : ¬ p.Closed) (listed : c.id ∈ p.handedTo)
    (still : c.id ∈ (mid.standIn p).handedTo) (owes : Owes p c) :
    Owes (mid.standIn p) (mid.standIn c) ∨
      (∃ task, errand = .send c.id (.task (some p.id) task)) ∨
      ∃ r, errand = .send p.id (.report r) ∧ r.sender = c.id := by
  have hid := h.id_eq
  have hpid := mid.standIn_id p
  have hcid := mid.standIn_id c
  cases owes with
  | handing pending hands =>
    rcases Slot.standIn_cases distinct hs hid hp with ⟨rfl, hmid⟩ | hsame
    · rw [hmid] at still ⊢
      rcases h.handing_kept pending hands with ⟨effect, pending, hands⟩ | hsent | hstruck
      · exact Or.inl (.handing pending (hcid.symm ▸ hands))
      · exact Or.inr (Or.inl hsent)
      · exact absurd still hstruck
    · rw [hsame]
      exact Or.inl (.handing pending (hcid.symm ▸ hands))
  | works works =>
    rcases Slot.standIn_cases distinct hs hid hc with ⟨rfl, hmid⟩ | hsame
    · rw [hmid]
      rcases h.worksFor_kept works with works | ⟨effect, pending, reports⟩ |
        ⟨task, rest, hdeed, hphase, hinbox, hbusy, heard⟩
      · exact Or.inl (.works (hpid.symm ▸ works))
      · exact Or.inl (.ended pending (hpid.symm ▸ reports))
      · -- the task becomes a prompt, so something else is owed
        have hmove := Engine.advance_of_deed actor (Or.inl ⟨_, hdeed⟩)
        refine Or.inl ((owes_heard distinct hp hs hinbox hbusy heard).mpr ?_)
        by_contra hlast
        exact free (.intro hp hs alive listed hmove hphase hinbox hbusy hlast)
    · rw [hsame]
      exact Or.inl (.works (hpid.symm ▸ works))
  | ended pending reports =>
    rcases Slot.standIn_cases distinct hs hid hc with ⟨rfl, hmid⟩ | hsame
    · rw [hmid]
      rcases h.ended_kept pending reports with
        ⟨effect, pending, reports⟩ | ⟨r, hsender, hrecipient, rfl⟩
      · exact Or.inl (.ended pending (hpid.symm ▸ reports))
      · refine Or.inr (Or.inr ⟨r, ?_, hsender⟩)
        have haccepts : (e.swap mid).accepts p.id = true := by
          have hmem : mid.standIn p ∈ (e.swap mid).slots := List.mem_map_of_mem hp
          by_contra hgone
          refine live (Engine.closed_of_not_accepts hmem ?_ ?_)
          · rw [swap_ids]
            exact distinct
          · rw [hpid]
            exact Bool.eq_false_iff.mpr hgone
        simp [Report.errand, hrecipient, haccepts]
    · rw [hsame]
      exact Or.inl (.ended pending (hpid.symm ▸ reports))
  | reported inbox report =>
    rcases Slot.standIn_cases distinct hs hid hp with ⟨rfl, hmid⟩ | hsame
    · rw [hmid] at still ⊢
      rcases h.report_kept spare inbox report with inbox | hstruck
      · exact Or.inl (.reported inbox (hcid.symm ▸ report))
      · exact absurd still hstruck
    · rw [hsame]
      exact Or.inl (.reported inbox (hcid.symm ▸ report))

/-- The steps of agents. -/
theorem Engine.Backed.acted (h : e.Backed) (o : Orderly e) (spare : ∀ t ∈ e.slots, t.Spare)
    (free : ¬ Strands e m) (hs : s ∈ e.slots) (actor : m.actor? = some s.id)
    (acted : Acted e s (e.deed m s.id) e') (distinct : e'.ids.Nodup) : e'.Backed := by
  obtain @⟨mid, errand, acts, slots, -, -⟩ := acted
  have hid := acts.id_eq
  have hforth : ∀ u ∈ e.slots, ∃ t ∈ e'.slots, (mid.standIn u).Keeps t ∧
      ∀ envelope, errand = .send u.id envelope → envelope ∈ t.inbox := by
    intro u hu
    rw [slots, ← mid.standIn_id u]
    exact errand.delivers (List.mem_map_of_mem hu)
  intro p' hp' live id listed
  rcases Errand.keeps (slots ▸ hp') with ⟨t, ht, hkeeps⟩ | hadd
  · obtain ⟨p, hp, rfl⟩ := List.mem_map.mp ht
    change (mid.standIn p).Keeps p' at hkeeps
    have hlive : ¬ (mid.standIn p).Closed := fun closed => live (hkeeps.closed closed)
    rw [hkeeps.handedTo] at listed
    by_cases hold : id ∈ p.handedTo
    · have halive : ¬ p.Closed := by
        intro closed
        rcases Slot.standIn_cases o.distinct hs hid hp with ⟨rfl, hmid⟩ | hsame
        · exact hlive (hmid.symm ▸ acts.closed closed)
        · exact hlive (hsame.symm ▸ closed)
      obtain ⟨c, hc, rfl, howes⟩ := h p hp halive id hold
      obtain ⟨c', hc', hkeeps', hbrings⟩ := hforth c hc
      refine ⟨c', hc', hkeeps'.id_eq.trans (mid.standIn_id c), ?_⟩
      rcases acts.owes actor o.distinct (spare p hp) free hs hp hc hlive halive hold listed howes
        with howes | ⟨task, hsent⟩ | ⟨r, hsent, hsender⟩
      · exact howes.keeps hkeeps hkeeps'
      · refine .works (Or.inr ⟨task, ?_⟩)
        rw [hkeeps.id_eq, mid.standIn_id]
        exact hbrings _ hsent
      · obtain ⟨t, ht, hkeeps'', hbrings⟩ := hforth p hp
        obtain rfl : p' = t :=
          Engine.eq_of_id_eq distinct ht hp' (hkeeps.id_eq.trans hkeeps''.id_eq.symm)
        refine .reported (hbrings _ hsent) ?_
        rw [hkeeps'.id_eq, mid.standIn_id]
        simpa [Envelope.isReportOf] using hsender
    · rcases Slot.standIn_cases o.distinct hs hid hp with ⟨rfl, hmid⟩ | hsame
      · rw [hmid] at listed hkeeps
        obtain ⟨hheads, hnone, effect, hpending, hhands⟩ :=
          (acts.handedTo_cases listed).resolve_left hold
        have hpresent : id ∈ e.ids := by
          refine (o.present p hp id hheads).resolve_right ?_
          rw [hnone]
          exact List.not_mem_nil
        obtain ⟨c, hc, rfl⟩ := List.mem_map.mp hpresent
        obtain ⟨c', hc', hkeeps', -⟩ := hforth c hc
        have hcid : c'.id = c.id := hkeeps'.id_eq.trans (mid.standIn_id c)
        exact ⟨c', hc', hcid, .handing (hkeeps.phase ▸ hpending) (hcid.symm ▸ hhands)⟩
      · rw [hsame] at listed
        exact absurd listed hold
  · rw [(acts.newborn hadd).handedTo] at listed
    cases listed

/-- **A move that strands nobody keeps debts backed.** -/
theorem Engine.Backed.step (h : e.Backed) (o : Orderly e) (spare : ∀ t ∈ e.slots, t.Spare)
    (free : ¬ Strands e m) : (e.step m).Backed := by
  have change := step_change o.distinct m
  have distinct := (o.step m).distinct
  generalize e.step m = e' at change distinct ⊢
  cases change with
  | still slots idle number closed => simpa only [Engine.Backed, slots] using h
  | @posted id envelope outside slots number closed source =>
    have hslots : e'.slots = ((Errand.send id envelope).run e).slots := slots
    refine h.of_keeps (fun p' hp' => ?_) (fun c hc => ?_)
    · rw [slots] at hp'
      exact Or.inl (keeps_send hp')
    · rw [hslots]
      obtain ⟨t, ht, hkeeps, -⟩ := (Errand.send id envelope).delivers hc
      exact ⟨t, ht, hkeeps⟩
  | crowned outside present number closed slots =>
    rw [Engine.modifyAgent, Engine.modifySlot] at slots
    refine h.of_keeps (fun p' hp' => ?_) (fun c hc => ?_)
    · rw [slots] at hp'
      rcases List.mem_append.mp hp' with hp' | hp'
      · obtain ⟨p, hp, rfl⟩ := List.mem_map.mp hp'
        exact Or.inl ⟨p, hp, keeps_parent e _ p⟩
      · rw [List.mem_singleton.mp hp']
        exact Or.inr rfl
    · rw [slots]
      exact ⟨_, List.mem_append_left _ (List.mem_map_of_mem hc), keeps_parent e _ c⟩
  | acted mem actor acted => exact h.acted o spare free mem actor acted distinct

/-! ### A move that strands -/

/-- **Behind a move that strands an agent debts are not backed.** -/
theorem not_backed_of_strands (distinct : e.ids.Nodup) (strands : Strands e m) :
    ¬ (e.step m).Backed := by
  obtain @⟨p, c, task, rest, parent, child, live, listed, move, phase, inbox, busy, last⟩ := strands
  intro h
  obtain ⟨mid, heard⟩ : ∃ mid : Slot, mid = { c with
    agent := c.agent.receive (.task (some p.id) task) e.world.now
    inbox := rest } := ⟨_, rfl⟩
  have hbooks : mid.agent.books = c.agent.books := by
    rw [heard]
    exact books_receive_busy busy _ task _
  have hid : mid.id = c.id := congrArg Books.id hbooks
  have hslots : (e.step m).slots = e.slots.map mid.standIn := by
    have hswap : e.modifySlot c.id (fun t => { t with
        agent := t.agent.receive (.task (some p.id) task) e.world.now
        inbox := rest }) = e.swap mid := by
      rw [heard] at hid ⊢
      exact Engine.modifySlot_eq_swap distinct child hid
    rw [move, Engine.step_advance distinct child, Engine.stepSlot?, phase, inbox]
    exact congrArg Engine.slots hswap
  -- nothing rules out that an agent is on its own list
  have hparent : ¬ (mid.standIn p).Closed ∧ c.id ∈ (mid.standIn p).handedTo := by
    rcases Slot.standIn_cases distinct child hid parent with ⟨rfl, hmid⟩ | hsame
    · rw [hmid, Slot.handedTo, hbooks, heard]
      exact ⟨live, listed⟩
    · rw [hsame]
      exact ⟨live, listed⟩
  have hmem : mid.standIn p ∈ (e.step m).slots := by
    rw [hslots]
    exact List.mem_map_of_mem parent
  obtain ⟨c', hc', hcid, howes⟩ := h _ hmem hparent.1 c.id hparent.2
  rw [hslots] at hc'
  obtain ⟨t, ht, rfl⟩ := List.mem_map.mp hc'
  rw [mid.standIn_id] at hcid
  obtain rfl := Engine.eq_of_id_eq distinct child ht hcid
  have hmid : mid.standIn t = mid := if_pos hid.symm
  rw [hmid] at howes
  exact last ((owes_heard distinct parent child inbox busy heard).mp howes)

/-! ### Waiting and ending a task -/

theorem delegated_of_wait {d : Desk} {step : Step} (h : (wait.run d).1 = .ok step)
    (helpers : d.agent.helpers = []) : d.agent.delegated ≠ [] := by
  rcases wait_cases d with ⟨hwork, -⟩ | ⟨-, hrun⟩
  · simpa [Agent.hasActiveWork, helpers] using hwork
  · rw [hrun] at h
    cases h

/-- An error that speaks of children at work comes of the list. -/
theorem delegated_of_busy? {a : Agent} {error : AgentError} (h : a.busy? = some error)
    (children : error = .rootActive ∨ ∃ n, error = .childrenActive n) : a.delegated ≠ [] := by
  intro hnone
  rw [Agent.busy?, hnone] at h
  rw [if_neg (by simp)] at h
  split at h
  · cases h
    rcases children with h | ⟨n, h⟩ <;> cases h
  · cases h

theorem delegated_of_finish {project : Project} {k : Dialect} {text : String} {d : Desk}
    {error : AgentError}
    (h : ((perform project (.finish text : Directive k)).run d).1 = .error error)
    (children : error = .rootActive ∨ ∃ n, error = .childrenActive n) :
    d.agent.delegated ≠ [] := by
  have lasting : ∀ {error : AgentError}, ((finish project text).run d).1 = .error error →
      (error = .rootActive ∨ ∃ n, error = .childrenActive n) → d.agent.delegated ≠ [] := by
    intro error h children
    rcases finish_cases project text d with ⟨e, hbusy, hrun⟩ | ⟨payload, -, hrun⟩
    · rw [hrun] at h
      cases h
      exact delegated_of_busy? hbusy children
    · rw [hrun] at h
      cases h
  cases k with
  | coder => exact lasting h children
  | manager => exact lasting h children
  | master =>
    have hrun := finishMaster_run text d
    change ((finishMaster text).run d : Except AgentError Step × Desk).1 = .error error at h
    generalize ((finishMaster text).run d : Except AgentError Step × Desk) = out at h hrun
    cases hrun with
    | rootActive working => exact working
    | helpersActive =>
      cases h
      rcases children with h | ⟨n, h⟩ <;> cases h
    | unheard reason =>
      cases h
      rcases children with h | ⟨n, h⟩ <;> cases h
    | goesOn reply idle => cases h
    | ended idle => cases h

theorem Engine.Backed.grounded (h : e.Backed) : e.Grounded := by
  intro p hp live k d books
  have owed : d.agent.delegated ≠ [] → e.OwedTo p := by
    intro hne
    have hlist : p.handedTo = d.agent.delegated.map Prod.fst :=
      congrArg Books.handedTo books.symm
    obtain ⟨order, rest, hcons⟩ := List.exists_cons_of_ne_nil hne
    have hmem : order.1 ∈ p.handedTo := by simp [hlist, hcons]
    obtain ⟨c, hc, hid, howes⟩ := h p hp live order.1 hmem
    exact ⟨c, hc, hid ▸ hmem, howes⟩
  have hhelpers : d.agent.helpers = p.agent.helpers := congrArg Books.helpers books
  exact ⟨fun step hwait hnone => owed (delegated_of_wait hwait (hhelpers.trans hnone)),
    fun text error hfinish children => owed (delegated_of_finish hfinish children)⟩

/-! ### Runs -/

/-- No move of a run strands anybody. -/
def Unstranded (e : Engine) (moves : List Move) : Prop :=
  ∀ ran m, ran ++ [m] <+: moves → ¬ Strands (e.follow ran) m

/-- **The states of a run are backed exactly if no move of it strands anybody.** Then nobody waits
for children, or is kept from ending its task by them, unless one of them owes it something. -/
theorem backed_iff_unstranded (launched : Launched e) (moves : List Move) :
    ((∀ ran, ran <+: moves → (e.follow ran).Backed) ↔ Unstranded e moves) ∧
      (Unstranded e moves → ∀ ran, ran <+: moves → (e.follow ran).Grounded) := by
  have o := launched.orderly
  have backed : Unstranded e moves → ∀ ran, ran <+: moves → (e.follow ran).Backed := by
    intro free ran
    -- whether a move strands depends on the run before it, so the run grows at its end
    induction ran using List.reverseRecOn with
    | nil =>
      intro _ p hp _ id listed
      rw [(launched.newborn hp).handedTo] at listed
      cases listed
    | append_singleton ran m ih =>
      intro hran
      rw [Engine.follow_concat]
      exact (ih ((List.prefix_append ran [m]).trans hran)).step (o.follow ran)
        (fun t ht => launched.spare ran ht) (free ran m hran)
  refine ⟨⟨fun h ran m hran strands => ?_, backed⟩, fun free ran hran => ?_⟩
  · refine not_backed_of_strands (o.follow ran).distinct strands ?_
    rw [← Engine.follow_concat]
    exact h _ hran
  · exact (backed free ran hran).grounded

/-! ### A run that strands -/

/-- The coder is given a task from outside and has begun with it. Its manager hands it another, which
it takes in as a prompt. It ends the task from outside, and the report goes there. -/
def shedJoin : List Move :=
  [Move.enterRun ⟨0⟩ "go", .admitRun 0, .registerRun 0, .dispatchRun 0,
    .enterRun ⟨1⟩ "look", .admitRun 1, .registerRun 1, .dispatchRun 1] ++
  List.replicate 2 (Move.advance ⟨1⟩) ++ List.replicate 4 (Move.advance ⟨0⟩) ++
  [Move.answer ⟨0⟩ (.ok "DELEGATE FILE \"a\" PROMPT=\"one\""), .advance ⟨0⟩] ++
  List.replicate 3 (Move.advance ⟨1⟩) ++
  [Move.answer ⟨1⟩ (.ok "FINISH PROMPT=\"did both\"")] ++ List.replicate 3 (Move.advance ⟨1⟩)

/-- The run strands the manager. -/
theorem backed_iff_unstranded_shed : Launched shedStart ∧ ¬ Unstranded shedStart shedJoin := by
  refine ⟨shed_launched, fun free => ?_⟩
  have hbacked := (backed_iff_unstranded shed_launched shedJoin).1.mpr free
  exact absurd (hbacked shedJoin List.prefix_rfl) (by decide +kernel)

/-- Behind it the manager is live and nobody owes it anything, and yet it may not end its task on
account of a child. -/
theorem shed_waits_in_vain :
    ¬ (shedStart.follow shedJoin).Backed ∧
      ∃ p ∈ (shedStart.follow shedJoin).slots, p.id = ⟨0⟩ ∧ ¬ p.Closed ∧
        p.agent.busy? = some (.childrenActive 1) ∧
        ∀ c ∈ (shedStart.follow shedJoin).slots, ¬ Owes p c := by
  constructor <;> decide +kernel

end Arbor
