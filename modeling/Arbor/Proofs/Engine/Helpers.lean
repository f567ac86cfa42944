import Arbor.Proofs.Engine.Kinship

/-! # The life of a helper

A helper finds its task in its inbox, works on it, and ends with one report to the agent that started
it, which is the moment it leaves the list of agents. The agent that started it has it on its list of
helpers from the order to the moment the report is taken in.

* `Slot.Serves`, `Slot.Spent`: what a helper is at before and after its report.
* `Tie`, `Tie.step`: how an agent and its helper stand to each other, and what a move makes of that.
* `Engine.Tied.step`: every move keeps agents and helpers tied, as long as scratch files can be
  made. -/

namespace Arbor

open Turn

variable {e e' : Engine} {m : Move} {s s' t mid : Slot} {deed : Deed} {errand : Errand} {n : Nat}

/-! ### What a helper is at -/

/-- **What a helper is at for `p`:** its task is in its inbox, in hand, or ended and yet to be
reported. -/
inductive Slot.Serves (p : AgentId) (s : Slot) : Prop where
  | sent {task : Task} {rest : List Envelope} (inbox : s.inbox = .task (some p) task :: rest)
      (idle : s.agent.task = none)
      (phase : s.phase = .waiting ∨ s.phase = .delivering ∨ s.phase = .stopped)
  | works {task : Task} (held : s.agent.task = some task) (origin : s.agent.origin = some p)
      (pending : s.phase.pending = [])
  | ended {ending : Ending} {task : Task} (pending : s.phase.pending = [.finish ending])
      (ended : ending.task = some task) (origin : ending.origin = some p)

/-- The agent has reported, and does nothing any more. -/
def Slot.Spent (s : Slot) : Prop := s.phase = .applying [] true ∨ s.phase = .stopped

namespace Slot.Serves

variable {p : AgentId}

theorem keeps (h : s.Serves p) (keeps : s.Keeps s') : s'.Serves p := by
  have htask : s'.agent.task = s.agent.task := congrArg Books.task keeps.books
  have horigin : s'.agent.origin = s.agent.origin := congrArg Books.origin keeps.books
  cases h with
  | @sent task rest inbox idle phase =>
    obtain ⟨more, hmore⟩ := keeps.inbox
    have hinbox : s'.inbox = .task (some p) task :: (rest ++ more) := by
      rw [hmore, inbox]
      rfl
    refine .sent hinbox (htask.trans idle) ?_
    rw [keeps.phase]
    exact phase
  | works held origin pending =>
    exact .works (htask.trans held) (horigin.trans origin) (keeps.phase ▸ pending)
  | ended pending ended origin => exact .ended (keeps.phase ▸ pending) ended origin

/-- The task that is found in the inbox is taken on. -/
theorem acts_sent {task : Task} {rest : List Envelope} (acts : Acts e s deed mid errand n)
    (inbox : s.inbox = .task (some p) task :: rest) (idle : s.agent.task = none)
    (phase : s.phase = .waiting ∨ s.phase = .delivering ∨ s.phase = .stopped) : mid.Serves p := by
  have hpending : s.phase.pending = [] := by
    rcases phase with phase | phase | phase <;> rw [phase] <;> rfl
  cases acts with
  | passed passes =>
    cases passes with
    | stops phase done => exact .sent inbox idle (Or.inr (Or.inr rfl))
    | wakes phase mail => exact .sent inbox idle (Or.inr (Or.inl rfl))
    | rests phase empty queue =>
      rw [inbox] at empty
      cases empty
    | readies phase empty queue =>
      rw [inbox] at empty
      cases empty
    | _ => simp [*] at phase
  | @heard envelope rest' phase' inbox' =>
    rw [inbox] at inbox'
    obtain ⟨rfl, rfl⟩ := List.cons.inj inbox'
    have hbooks := s.agent.books_receive (.task (some p) task) e.world.now
    have hidle : s.agent.books.task = none := idle
    have hreceive : s.agent.books.receive (.task (some p) task) =
        { s.agent.books with task := some task, origin := some p } := by
      simp [Books.receive, hidle]
    rw [hreceive] at hbooks
    have htask : (s.agent.receive (.task (some p) task) e.world.now).task = some task :=
      congrArg Books.task hbooks
    exact .works htask (congrArg Books.origin hbooks) hpending
  | retried turn few =>
    rcases turn with turn | ⟨call, prompt, deadline, turn⟩ <;> simp [turn] at phase
  | despaired turn many gives =>
    rcases turn with turn | ⟨call, prompt, deadline, turn⟩ <;> simp [turn] at phase
  | reported ending =>
    rw [Slot.pending_of_ending ending] at hpending
    cases hpending
  | _ => simp [*] at phase

/-- The task in hand stays, or ends and is yet to be reported. -/
theorem acts_works {task : Task} (acts : Acts e s deed mid errand n) (lone : mid.Lone)
    (helper : mid.agent.kind.isHelper = true) (held : s.agent.task = some task)
    (origin : s.agent.origin = some p) (pending : s.phase.pending = []) : mid.Serves p := by
  rcases lone.pending helper with hnone | ⟨ending, hending⟩
  · cases acts.taskChange with
    | stays quiet same origin' completed =>
      exact .works (same.trans held) ((origin' (by rw [held]; simp)).trans origin) hnone
    | starts activated idle delivered now origin' completed =>
      rw [held] at idle
      cases idle
    | ends quiet held' idle completed reports ended origin' =>
      rw [hnone] at reports
      cases reports
  · have hm : .finish ending ∈ mid.phase.pending := hending ▸ List.mem_singleton.mpr rfl
    rcases Slot.Entitled.finish_cases acts hm with hold | ⟨htask, horigin⟩
    · rw [pending] at hold
      cases hold
    · exact .ended hending (htask.trans held) (horigin.trans origin)

/-- **A helper's step:** it goes on to serve, or reports the end of its task. -/
theorem acts (h : s.Serves p) (lone : mid.Lone) (helper : mid.agent.kind.isHelper = true)
    (acts : Acts e s deed mid errand n) :
    mid.Serves p ∨ ∃ ending, deed = .report ending := by
  cases h with
  | sent inbox idle phase => exact Or.inl (acts_sent acts inbox idle phase)
  | works held origin pending => exact Or.inl (acts_works acts lone helper held origin pending)
  | @ended ending task pending ended origin =>
    have hm : .finish ending ∈ s.phase.pending := pending ▸ List.mem_singleton.mpr rfl
    rcases acts.finish_kept hm with hkept | hreport
    · rcases lone.pending helper with hnone | ⟨other, hother⟩
      · rw [hnone] at hkept
        cases hkept
      · rw [hother] at hkept
        cases List.mem_singleton.mp hkept
        exact Or.inl (.ended hother ended origin)
    · exact Or.inr ⟨ending, hreport⟩

/-- What a helper reports is the end of a task of `p`. -/
theorem report (h : s.Serves p) {ending : Ending} (acts : Acts e s (.report ending) mid errand n) :
    ∃ task, ending.task = some task ∧ ending.origin = some p := by
  cases acts with
  | reported phase =>
    have hpending := Slot.pending_of_ending phase
    cases h with
    | sent inbox idle phase =>
      rcases phase with phase | phase | phase <;> rw [phase] at hpending <;> cases hpending
    | works held origin pending =>
      rw [pending] at hpending
      cases hpending
    | @ended ending' task pending ended origin =>
      rw [pending] at hpending
      obtain ⟨heq, -⟩ := List.cons.inj hpending
      cases heq
      exact ⟨task, ended, origin⟩

end Slot.Serves

namespace Slot.Spent

theorem acts (h : s.Spent) (acts : Acts e s deed mid errand n) : deed = .other ∧ mid.Spent := by
  have hphase : s.phase = .applying [] true := h.resolve_right acts.going
  cases acts with
  | passed passes =>
    cases passes with
    | leaves phase => exact ⟨rfl, Or.inr rfl⟩
    | _ => simp [*] at hphase
  | retried turn few =>
    rcases turn with turn | ⟨call, prompt, deadline, turn⟩ <;> simp [turn] at hphase
  | despaired turn many gives =>
    rcases turn with turn | ⟨call, prompt, deadline, turn⟩ <;> simp [turn] at hphase
  | reported phase =>
    have hpending := Slot.pending_of_ending phase
    rw [hphase] at hpending
    cases hpending
  | _ => simp [*] at hphase

/-- **Whoever has reported does nothing any more.** -/
theorem fares (h : s.Spent) (fares : s.Fares e m s') : e.deed m s.id = .other ∧ s'.Spent := by
  cases fares with
  | idle deed keeps =>
    refine ⟨deed, ?_⟩
    rw [Slot.Spent, keeps.phase]
    exact h
  | acts acts keeps =>
    obtain ⟨hdeed, hspent⟩ := h.acts acts
    refine ⟨hdeed, ?_⟩
    rw [Slot.Spent, keeps.phase]
    exact hspent

end Slot.Spent

/-- **A helper that reports leaves the list,** and is spent. -/
theorem Slot.Lone.report {ending : Ending} (lone : s.Lone) (helper : s.agent.kind.isHelper = true)
    (fares : s.Fares e m s') (reports : e.deed m s.id = .report ending) :
    s'.listed = false ∧ s'.Spent := by
  cases fares with
  | idle deed keeps =>
    rw [reports] at deed
    cases deed
  | @acts mid errand n acts keeps =>
    rw [reports] at acts
    have hmid : mid.listed = false ∧ mid.Spent := by
      cases acts with
      | @reported _ rest retiring phase =>
        have hpending := Slot.pending_of_ending phase
        obtain rfl : rest = [] := by
          rcases lone.pending helper with hnone | ⟨other, hother⟩
          · rw [hnone] at hpending
            cases hpending
          · rw [hother] at hpending
            exact (List.cons.inj hpending).2.symm
        refine ⟨by simp [Slot.concluded, helper], Or.inl ?_⟩
        simp [Slot.concluded, helper]
    refine ⟨?_, ?_⟩
    · cases hlisted : s'.listed with
      | false => rfl
      | true => exact absurd (keeps.listed hlisted) (by simp [hmid.1])
    · rw [Slot.Spent, keeps.phase]
      exact hmid.2

/-! ### Reports in the inbox and helpers on the list -/

/-- How many reports of `h` the agent has yet to take in. -/
def Slot.mailFrom (s : Slot) (h : AgentId) : Nat := s.inbox.countP (Envelope.isReportOf h)

/-- The move has the agent take in a report of `h`. -/
def Engine.Hears (e : Engine) (m : Move) (p h : AgentId) : Prop :=
  ∃ r, e.deed m p = .hear (.report r) ∧ r.sender = h

/-- The move has the agent report. -/
def Engine.Reports (e : Engine) (m : Move) (h : AgentId) : Prop :=
  ∃ ending, e.deed m h = .report ending

theorem Slot.mailFrom_ne_zero {h : AgentId} {r : Report} (inbox : .report r ∈ s.inbox)
    (sender : r.sender = h) : s.mailFrom h ≠ 0 := by
  intro hzero
  have hnone := List.countP_eq_zero.mp hzero _ inbox
  simp [Envelope.isReportOf, sender] at hnone

/-- A report is sent by the one who makes the move. -/
theorem Engine.reports_of_routed {r : Report} (routed : e.routed? m = some r) :
    e.Reports m r.sender := by
  obtain ⟨x, hx, ending, actor, hdeed, hreport⟩ := Engine.routed?_eq_some routed
  obtain ⟨task, -, rfl⟩ := Option.map_eq_some_iff.mp hreport
  exact ⟨ending, hdeed⟩

namespace Orderly

variable {h : AgentId}

/-- Whoever takes in an envelope sends no report. -/
theorem not_routed_of_hear (o : Orderly e) (hs : s ∈ e.slots) {envelope : Envelope}
    (hears : e.deed m s.id = .hear envelope) : e.routed? m = none := by
  have actor : m.actor? = some s.id := by
    by_contra h
    rw [Engine.deed_eq_other h] at hears
    cases hears
  rw [(Engine.activated?_of_actor o.distinct hs actor).2, hears]
  rfl

/-- **What becomes of the reports in an inbox:** one is taken in, one comes in, or nothing changes. -/
theorem mail_step (o : Orderly e) (hs : s ∈ e.slots) (hs' : s' ∈ (e.step m).slots)
    (id : s'.id = s.id) :
    (e.Hears m s.id h ∧ s.mailFrom h = s'.mailFrom h + 1) ∨
    (¬ e.Hears m s.id h ∧ e.Reports m h ∧ s'.mailFrom h = s.mailFrom h + 1) ∨
    (¬ e.Hears m s.id h ∧ s'.mailFrom h = s.mailFrom h) := by
  obtain ⟨kept, more, hinbox, hinbox', hmore⟩ := o.inbox_step hs hs' id
  have hcount : s.mailFrom h = (e.deed m s.id).heard.countP (Envelope.isReportOf h) +
      kept.countP (Envelope.isReportOf h) := by
    rw [Slot.mailFrom, hinbox, List.countP_append]
  have hcount' : s'.mailFrom h = kept.countP (Envelope.isReportOf h) +
      more.countP (Envelope.isReportOf h) := by
    rw [Slot.mailFrom, hinbox', List.countP_append]
  by_cases hears : e.Hears m s.id h
  · obtain ⟨r, hdeed, hsender⟩ := hears
    have hnone : more.countP (Envelope.isReportOf h) = 0 := by
      rcases hmore with rfl | ⟨envelope, rfl, hreport⟩
      · rfl
      · refine List.countP_eq_zero.mpr fun x hx hr => ?_
        obtain rfl := List.mem_singleton.mp hx
        cases x with
        | report r' =>
          obtain ⟨hrouted, -⟩ := hreport r' rfl
          rw [o.not_routed_of_hear hs hdeed] at hrouted
          cases hrouted
        | _ => cases hr
    refine Or.inl ⟨⟨r, hdeed, hsender⟩, ?_⟩
    rw [hcount, hcount', hnone, hdeed]
    simp [Deed.heard, Envelope.isReportOf, hsender]
    omega
  · have hheard : (e.deed m s.id).heard.countP (Envelope.isReportOf h) = 0 := by
      refine List.countP_eq_zero.mpr fun x hx hr => hears ?_
      cases hdeed : e.deed m s.id with
      | hear envelope =>
        rw [hdeed] at hx
        obtain rfl := List.mem_singleton.mp hx
        cases x with
        | report r => exact ⟨r, hdeed, by simpa [Envelope.isReportOf] using hr⟩
        | _ => cases hr
      | _ =>
        rw [hdeed] at hx
        cases hx
    rcases hmore with rfl | ⟨envelope, rfl, hreport⟩
    · exact Or.inr (Or.inr ⟨hears, by rw [hcount, hcount', hheard]; simp⟩)
    · by_cases hr : envelope.isReportOf h = true
      · refine Or.inr (Or.inl ⟨hears, ?_, by rw [hcount, hcount', hheard]; simp [hr]⟩)
        cases envelope with
        | report r =>
          obtain rfl : r.sender = h := by simpa [Envelope.isReportOf] using hr
          exact Engine.reports_of_routed (hreport r rfl).1
        | _ => cases hr
      · exact Or.inr (Or.inr ⟨hears, by rw [hcount, hcount', hheard]; simp [hr]⟩)

/-- Whoever is on the list of helpers stays there until it reports. -/
theorem helpers_stay (o : Orderly e) (hs : s ∈ e.slots) (hs' : s' ∈ (e.step m).slots)
    (id : s'.id = s.id) (unheard : ¬ e.Hears m s.id h) (on : h ∈ s.agent.helpers) :
    h ∈ s'.agent.helpers := by
  rcases (o.shift hs hs' id).helpers_kept on with hin | ⟨rfl, phase, r, rest, inbox, sender⟩
  · exact hin
  · refine absurd ⟨r, ?_, sender⟩ unheard
    rw [Engine.deed_advance o.distinct hs, Slot.stride, phase, inbox]
    rfl

/-- **A report strikes its sender off,** unless that is at work by an entry. -/
theorem helpers_struck (o : Orderly e) (hs : s ∈ e.slots) (hs' : s' ∈ (e.step m).slots)
    (id : s'.id = s.id) (hears : e.Hears m s.id h) (lasting : s.agent.kind.isHelper = false)
    (free : h ∉ s.handedTo) : h ∉ s'.agent.helpers := by
  obtain ⟨r, hdeed, rfl⟩ := hears
  have hfares := o.fares_of_id hs hs' id
  cases hfares with
  | idle deed keeps =>
    rw [hdeed] at deed
    cases deed
  | @acts mid errand n acts keeps =>
    rw [hdeed] at acts
    have hhelpers : s'.agent.helpers = mid.agent.helpers := congrArg Books.helpers keeps.books
    rw [hhelpers]
    cases acts with
    | heard phase inbox =>
      have hbooks := s.agent.books_receive (.report r) e.world.now
      have hkind : s.agent.books.kind.isHelper = false := lasting
      have hfree : r.sender ∉ s.agent.books.handedTo := free
      have hreceive : s.agent.books.receive (.report r) =
          { s.agent.books with helpers := s.agent.helpers.filter fun x => x != r.sender } := by
        simp only [Books.receive, hkind, if_neg hfree]
        rfl
      rw [hreceive] at hbooks
      rw [show (s.agent.receive (.report r) e.world.now).helpers = _ from
        congrArg Books.helpers hbooks]
      simp

end Orderly

/-! ### An agent and its helper -/

/-- **How an agent and its helper stand to each other.** The helper works, has reported, or its report
was taken in. -/
inductive Tie (p t : Slot) : Prop where
  | working (listed : t.listed = true) (serves : t.Serves p.id) (quiet : p.mailFrom t.id = 0)
      (on : t.id ∈ p.agent.helpers)
  | reported (gone : t.listed = false) (spent : t.Spent) (mail : p.mailFrom t.id = 1)
      (on : t.id ∈ p.agent.helpers)
  | dismissed (gone : t.listed = false) (spent : t.Spent) (quiet : p.mailFrom t.id = 0)
      (off : t.id ∉ p.agent.helpers)

/-- A helper that is on the list of agents is on that of its agent. -/
theorem Tie.on_of_listed {p t : Slot} (tie : Tie p t) (listed : t.listed = true) :
    t.id ∈ p.agent.helpers := by
  cases tie with
  | working listed' serves quiet on => exact on
  | reported gone spent mail on => exact on
  | dismissed gone spent quiet off =>
    rw [listed] at gone
    cases gone

/-- Everybody on the list of a live agent is yet to be started or has a slot, and the agent and its
helpers stand to each other as they should. -/
def Engine.Tied (e : Engine) : Prop :=
  ∀ p ∈ e.slots, ¬ p.Closed → (∀ h ∈ p.agent.helpers, p.Orders h ∨ h ∈ e.ids) ∧
    ∀ t ∈ e.slots, t.Helps p.id → Tie p t

section Ties

variable {p p' t' : Slot}

/-- The slots of an agent and of a helper before and behind a move. -/
structure Pair (e : Engine) (m : Move) (p p' t t' : Slot) : Prop where
  parent : p ∈ e.slots
  helper : t ∈ e.slots
  parent' : p' ∈ (e.step m).slots
  helper' : t' ∈ (e.step m).slots
  parentId : p'.id = p.id
  helperId : t'.id = t.id
  helps : t.Helps p.id
  live : ¬ p'.Closed

/-- A helper that works goes on, or reports. -/
theorem Tie.step_working (o : Orderly e) (k : Kinship e) (lone : t.Lone) (spare : t.Spare)
    (pair : Pair e m p p' t t') (listed : t.listed = true) (serves : t.Serves p.id)
    (quiet : p.mailFrom t.id = 0) (on : t.id ∈ p.agent.helpers) : Tie p' t' := by
  have hfares := o.fares_of_id pair.helper pair.helper' pair.helperId
  have unheard : ¬ e.Hears m p.id t.id := by
    intro hears
    rcases o.mail_step (h := t.id) pair.parent pair.parent' pair.parentId with
      ⟨-, hmail⟩ | ⟨hnot, -⟩ | ⟨hnot, -⟩
    · omega
    · exact hnot hears
    · exact hnot hears
  have hon : t'.id ∈ p'.agent.helpers := pair.helperId ▸
    o.helpers_stay pair.parent pair.parent' pair.parentId unheard on
  have hmail := o.mail_step (h := t.id) pair.parent pair.parent' pair.parentId
  by_cases hreports : e.Reports m t.id
  · obtain ⟨ending, hdeed⟩ := hreports
    obtain ⟨hgone, hspent⟩ := lone.report pair.helps.1 hfares hdeed
    -- the report is on a task of the agent, and reaches it
    obtain ⟨mid, errand, n, acts⟩ := o.acts_of_deed pair.helper (m := m) (by rw [hdeed]; simp)
    rw [hdeed] at acts
    obtain ⟨task, htask, horigin⟩ := serves.report acts
    have actor : m.actor? = some t.id := by
      by_contra h
      rw [Engine.deed_eq_other h] at hdeed
      cases hdeed
    have hrouted := (Engine.activated?_of_actor o.distinct pair.helper actor).2
    rw [hdeed, Slot.report?, Ending.report?, htask, Option.map_some] at hrouted
    have harrived := o.report_delivered hrouted pair.parent horigin pair.parent' pair.parentId
      pair.live
    have hsome := Slot.mailFrom_ne_zero (h := t.id) harrived rfl
    refine .reported hgone hspent ?_ hon
    rw [pair.helperId]
    rcases hmail with ⟨hears, -⟩ | ⟨-, -, hmail⟩ | ⟨-, hmail⟩
    · exact absurd hears unheard
    · omega
    · omega
  · have hlisted : t'.listed = true := by
      rcases o.listed_step pair.helper pair.helper' pair.helperId listed with
        hlisted | hreport | ⟨x, hx, child, rest, retiring, phase, below, all⟩
      · exact hlisted
      · exact absurd hreport hreports
      · have hwith := k.released_with pair.parent on hx phase below
        exact absurd (Or.inl (all p' pair.parent' (pair.parentId ▸ hwith))) pair.live
    have hserves : t'.Serves p'.id := by
      rw [pair.parentId]
      cases hfares with
      | idle deed keeps => exact serves.keeps keeps
      | @acts mid errand n acts keeps =>
        have hkind : mid.agent.kind = t.agent.kind := congrArg Nature.kind acts.nature
        have hmid : mid.Lone := lone.acts spare acts
        rcases serves.acts hmid (hkind ▸ pair.helps.1) acts with hserves | hreport
        · exact hserves.keeps keeps
        · exact absurd hreport hreports
    refine .working hlisted hserves ?_ hon
    rw [pair.helperId]
    rcases hmail with ⟨hears, -⟩ | ⟨-, hreport, -⟩ | ⟨-, hmail⟩
    · exact absurd hears unheard
    · exact absurd hreport hreports
    · omega

/-- A report that was sent is taken in, or stays in the inbox. -/
theorem Tie.step_reported (o : Orderly e) (k : Kinship e) (alone : p.Lone)
    (pair : Pair e m p p' t t') (gone : t.listed = false) (spent : t.Spent)
    (mail : p.mailFrom t.id = 1) (on : t.id ∈ p.agent.helpers) : Tie p' t' := by
  have hfares := o.fares_of_id pair.helper pair.helper' pair.helperId
  obtain ⟨hidle, hspent⟩ := spent.fares hfares
  have hgone := hfares.unlisted gone
  have hsilent : ¬ e.Reports m t.id := by
    rintro ⟨ending, hdeed⟩
    rw [hidle] at hdeed
    cases hdeed
  have lasting : p.agent.kind.isHelper = false := by
    cases hk : p.agent.kind.isHelper with
    | false => rfl
    | true =>
      rw [alone.helpers hk] at on
      cases on
  rcases o.mail_step (h := t.id) pair.parent pair.parent' pair.parentId with
    ⟨hears, hmail⟩ | ⟨-, hreport, -⟩ | ⟨unheard, hmail⟩
  · have free : t.id ∉ p.handedTo := fun hin =>
      k.disjoint p pair.parent p pair.parent t.id on (Slot.mem_entries.mpr (Or.inr (Or.inl hin)))
    refine .dismissed hgone hspent (by rw [pair.helperId]; omega) ?_
    rw [pair.helperId]
    exact o.helpers_struck pair.parent pair.parent' pair.parentId hears lasting free
  · exact absurd hreport hsilent
  · refine .reported hgone hspent (by rw [pair.helperId]; omega) ?_
    rw [pair.helperId]
    exact o.helpers_stay pair.parent pair.parent' pair.parentId unheard on

/-- Behind its report nothing more comes of a helper. -/
theorem Tie.step_dismissed (o : Orderly e) (pair : Pair e m p p' t t') (gone : t.listed = false)
    (spent : t.Spent) (quiet : p.mailFrom t.id = 0) (off : t.id ∉ p.agent.helpers) : Tie p' t' := by
  have hfares := o.fares_of_id pair.helper pair.helper' pair.helperId
  obtain ⟨hidle, hspent⟩ := spent.fares hfares
  refine .dismissed (hfares.unlisted gone) hspent ?_ ?_
  · rw [pair.helperId]
    rcases o.mail_step (h := t.id) pair.parent pair.parent' pair.parentId with
      ⟨-, hmail⟩ | ⟨-, ⟨ending, hdeed⟩, -⟩ | ⟨-, hmail⟩
    · omega
    · rw [hidle] at hdeed
      cases hdeed
    · omega
  · rw [pair.helperId]
    intro hin
    rcases (o.shift pair.parent pair.parent' pair.parentId).helpers_cases hin with hin | ⟨hle, -⟩
    · exact off hin
    · exact absurd (o.numbered t pair.helper) (Nat.not_lt.mpr hle)

/-- **What a move makes of an agent and its helper.** -/
theorem Tie.step (o : Orderly e) (k : Kinship e) (lone : t.Lone) (spare : t.Spare) (alone : p.Lone)
    (pair : Pair e m p p' t t') (tie : Tie p t) : Tie p' t' := by
  cases tie with
  | working listed serves quiet on => exact .step_working o k lone spare pair listed serves quiet on
  | reported gone spent mail on => exact .step_reported o k alone pair gone spent mail on
  | dismissed gone spent quiet off => exact .step_dismissed o pair gone spent quiet off

end Ties

/-! ### Helpers that are started -/

/-- **A reply orders helpers, and a scratch file for one of them cannot be made.** -/
def Engine.spawnFails (e : Engine) (m : Move) : Bool :=
  e.slots.any fun s =>
    match e.deed m s.id with
    | .complete prompt response => Turn.spawnFails e.project response
        (recorded prompt response ⟨{ s.agent with failures := 0 }, e.world⟩)
    | _ => false

/-- Whoever is new on the list of helpers is yet to be started. -/
theorem Acts.hired (h : Acts e s deed mid errand n)
    (fine : ∀ prompt response, deed = .complete prompt response →
      Turn.spawnFails e.project response
        (recorded prompt response ⟨{ s.agent with failures := 0 }, e.world⟩) = false)
    {c : AgentId} (hc : c ∈ mid.agent.helpers) : c ∈ s.agent.helpers ∨ mid.Orders c := by
  cases h with
  | @heard envelope rest phase inbox =>
    have hbooks := congrArg Books.helpers (s.agent.books_receive envelope e.world.now)
    have hc' : c ∈ (s.agent.receive envelope e.world.now).books.helpers := hc
    rw [hbooks] at hc'
    exact Or.inl ((Books.helpers_receive envelope).1 hc')
  | began phase begun =>
    obtain ⟨-, -, rfl⟩ := begin_eq_some begun
    exact Or.inl hc
  | @completed call prompt response deadline done phase complete =>
    obtain rfl := complete
    rcases complete_hired (fine prompt response rfl) hc with hc | ⟨kind, text, scratch, hm⟩
    · exact Or.inl hc
    · exact Or.inr ⟨_, hm, by simp [Effect.starts]⟩
  | despaired turn many gives => cases gives <;> exact Or.inl hc
  | abandoned phase gives => cases gives <;> exact Or.inl hc
  | _ => exact Or.inl hc

theorem Slot.Touched.frame (h : s.Touched e m e' s') :
    s'.phase = s.phase ∧ s'.agent.kind = s.agent.kind ∧ s'.agent.scratch = s.agent.scratch ∧
      s'.agent.helpers = s.agent.helpers := by
  cases h <;> exact ⟨rfl, rfl, rfl, rfl⟩

theorem Orderly.hired (o : Orderly e) (hs : s ∈ e.slots) (hs' : s' ∈ (e.step m).slots)
    (id : s'.id = s.id) (fine : e.spawnFails m = false) {c : AgentId}
    (hc : c ∈ s'.agent.helpers) : c ∈ s.agent.helpers ∨ s'.Orders c := by
  obtain ⟨mid, hown, htouched⟩ := o.touched hs hs' id
  obtain ⟨hphase, -, -, hhelpers⟩ := htouched.frame
  rw [hhelpers] at hc
  rw [Slot.Orders, hphase]
  rcases hown with ⟨rfl, -⟩ | ⟨errand, n, acts, -⟩
  · exact Or.inl hc
  · refine acts.hired (fun prompt response hdeed => ?_) hc
    have hfine := List.any_eq_false.mp fine s hs
    rw [hdeed] at hfine
    simpa using hfine

namespace Engine.Tied

/-- The helper that has just been started works. -/
theorem entered (o : Orderly e) (k : Kinship e) (lone : ∀ s ∈ e.slots, s.Lone) {p p' t' : Slot}
    (hp : p ∈ e.slots) (hp' : p' ∈ (e.step m).slots) (id : p'.id = p.id)
    (ht' : t' ∈ (e.step m).slots) (new : t'.id ∉ e.ids) (helps : t'.Helps p.id) : Tie p' t' := by
  have henters := o.enters ht' new
  obtain ⟨x, hx, -, horders, hparent⟩ := henters.orders lone helps.1
  obtain rfl : x = p := by
    refine Engine.eq_of_id_eq o.distinct hp hx ?_
    exact Option.some.inj (hparent.symm.trans helps.2)
  have hquiet : p'.mailFrom t'.id = 0 := by
    refine List.countP_eq_zero.mpr fun envelope he hr => ?_
    cases envelope with
    | report r =>
      obtain hsender : r.sender = t'.id := by simpa [Envelope.isReportOf] using hr
      rcases o.report_arrives m hp' he with ⟨u, hu, -, hold⟩ | ⟨hrouted, -⟩
      · exact new (hsender ▸ k.known u hu r hold)
      · obtain ⟨y, hy, ending, -, -, hreport⟩ := Engine.routed?_eq_some hrouted
        obtain ⟨task, -, rfl⟩ := Option.map_eq_some_iff.mp hreport
        exact new (hsender ▸ List.mem_map_of_mem hy)
    | _ => cases hr
  have unheard : ¬ e.Hears m x.id t'.id := by
    rintro ⟨r, hdeed, hsender⟩
    obtain ⟨mid, errand, n, acts⟩ := o.acts_of_deed hp (m := m) (by rw [hdeed]; simp)
    rw [hdeed] at acts
    cases acts with
    | heard phase inbox =>
      obtain ⟨effect, he, -⟩ := horders
      rw [phase] at he
      cases he
  have hon := o.helpers_stay hp hp' id unheard (k.ordered x hp t'.id horders)
  cases henters with
  | helper mem actor phase slot =>
    have hxid : x.id = _ := Option.some.inj (hparent.symm.trans (by rw [slot]; rfl))
    refine .working (by rw [slot]; rfl) (.sent (by rw [slot, id, hxid]; rfl) (by rw [slot]; rfl)
      (Or.inl (by rw [slot]; rfl))) hquiet hon
  | entry mem actor phase slot =>
    have hkind := (lone _ mem).adopts _ _ _ (by rw [phase]; exact List.mem_cons_self)
    have hhelper := helps.1
    rw [slot] at hhelper
    exact absurd (hkind.symm.trans hhelper) (by simp)
  | master outside named slot =>
    have hhelper := helps.1
    rw [slot] at hhelper
    cases hhelper

/-- **Every move keeps agents and helpers tied,** as long as scratch files can be made. -/
theorem step (h : e.Tied) (o : Orderly e) (k : Kinship e) (lone : ∀ s ∈ e.slots, s.Lone)
    (spare : ∀ s ∈ e.slots, s.Spare) (fine : e.spawnFails m = false) : (e.step m).Tied := by
  have k' := k.step o lone m
  intro p' hp' live
  rcases o.old_or_new hp' with ⟨p, hp, hid⟩ | hnew
  · have hshift := o.shift hp hp' hid
    have halive : ¬ p.Closed := fun closed => live (hshift.closed closed)
    obtain ⟨hbacked, hties⟩ := h p hp halive
    refine ⟨fun c hc => ?_, fun t' ht' helps => ?_⟩
    · rcases o.hired hp hp' hid fine hc with hold | horders
      · rcases hbacked c hold with ⟨effect, he, hstarts⟩ | hin
        · have hcomer : c ∈ p.newcomers := by
            refine List.mem_filterMap.mpr ⟨effect, he, ?_⟩
            cases effect with
            | spawn id kind prompt scratch =>
              simpa [Effect.starts, Effect.newcomer?] using hstarts
            | _ => cases hstarts
          refine (hshift.newcomer_kept hcomer).imp_left fun hcomer => ?_
          obtain ⟨effect, he, hsome⟩ := List.mem_filterMap.mp hcomer
          cases effect with
          | spawn id kind prompt scratch =>
            exact ⟨_, he, by simpa [Effect.starts, Effect.newcomer?] using hsome⟩
          | adopt id kind path =>
            refine absurd (Slot.mem_entries.mpr (Or.inr (Or.inr ⟨_, he, ?_⟩)))
              (k'.disjoint p' hp' p' hp' c hc)
            exact hsome
          | _ => cases hsome
        · exact Or.inr (o.mem_ids_step hin)
      · exact Or.inl horders
    · rw [hid] at helps
      rcases o.old_or_new ht' with ⟨t, ht, htid⟩ | htnew
      · have hhelps := (k.helps_step o ht ht' htid).mp helps
        exact (hties t ht hhelps).step o k (lone t ht) (spare t ht) (lone p hp)
          ⟨hp, ht, hp', ht', hid, htid, hhelps, live⟩
      · exact entered o k lone hp hp' hid ht' htnew helps
  -- nobody is a helper of an agent that is new
  · refine ⟨fun c hc => ?_, fun t' ht' helps => ?_⟩
    · rw [(o.enters hp' hnew).helpers] at hc
      cases hc
    · exfalso
      rcases o.old_or_new ht' with ⟨t, ht, htid⟩ | htnew
      · have hhelps := (k.helps_step o ht ht' htid).mp helps
        obtain ⟨q, hq, hparent⟩ := k.housed t ht hhelps.1
        obtain rfl := Option.some.inj (hparent.symm.trans hhelps.2)
        exact hnew hq
      · obtain ⟨x, hx, -, -, hparent⟩ := (o.enters ht' htnew).orders lone helps.1
        have heq := Option.some.inj (hparent.symm.trans helps.2)
        exact hnew (heq ▸ List.mem_map_of_mem hx)

end Engine.Tied

end Arbor
