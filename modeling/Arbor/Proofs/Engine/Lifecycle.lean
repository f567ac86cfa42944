import Arbor.Proofs.Engine.Helpers

/-! # The lifecycle of helpers

Along every run the list of helpers of an agent says who helps it: those it is yet to start, those
that work, and those whose report it is yet to take in. An agent that has helpers holds on to its task.
A helper works in a scratch file that suits its agent, and reports once.

* `Slot.Ends`, `Shift.unhelped`: a task ends only when nobody helps the agent.
* `Engine.Suited`: helpers work in scratch files that suit the agent that started them.
* `Launched.reports_once`: a helper reports once, and is off the list then.
* `Orderly.ends_site`: what the end of a task makes of the scratch file.
* `helper_lifecycle`: all of this along every run. -/

namespace Arbor

open Turn

variable {e e' : Engine} {m : Move} {s s' t mid : Slot} {deed : Deed} {errand : Errand} {n : Nat}

/-! ### Holding on to a task -/

/-- **The agent's task ends:** its report is yet to be made, and was not before. -/
def Slot.Ends (s s' : Slot) : Prop :=
  s.phase.pending = [] ∧ ∃ ending, .finish ending ∈ s'.phase.pending

theorem Booked.task_kept {b b' : Books} {k k' : Nat} {effects : List Effect}
    (h : Booked b k b' k' effects) (helped : b.helpers ≠ []) : b'.task = b.task := by
  cases h with
  | handed children => rw [Books.handAll_eq]
  | retired idle task origin => exact absurd idle.2 helped
  | _ => rfl

/-- A task ends only when nobody helps the agent. -/
theorem Shift.unhelped (h : Shift e m e' s s') (ends : s.Ends s') :
    s.agent.helpers = [] ∧ s'.agent.helpers = [] := by
  obtain ⟨idle, ending, hm⟩ := ends
  cases h with
  | calm calm =>
    obtain ⟨done, hdone, -⟩ := calm.pending
    rw [idle] at hdone
    rw [(List.append_eq_nil_iff.mp hdone.symm).2] at hm
    cases hm
  | received move phase inbox =>
    rw [phase] at hm
    cases hm
  | turned actor idle going listed inbox booked =>
    have hnone : s'.agent.helpers = [] := booked.finish_idle hm
    refine ⟨List.eq_nil_iff_forall_not_mem.mpr fun c hc => ?_, hnone⟩
    have hkept : c ∈ s'.agent.helpers := booked.helpers.1 hc
    rw [hnone] at hkept
    cases hkept
  | bounced move phase gone =>
    rw [phase] at idle
    cases idle

/-- **An agent that has helpers holds on to its task.** -/
theorem Shift.holds_on (h : Shift e m e' s s') (helped : s.agent.helpers ≠ []) :
    (s.agent.task ≠ none → s'.agent.task = s.agent.task) ∧ ¬ s.Ends s' := by
  refine ⟨fun held => ?_, fun ends => helped (h.unhelped ends).1⟩
  cases h with
  | calm calm => exact congrArg Books.task calm.books
  | @received envelope rest move phase inbox =>
    have htask := congrArg Books.task (s.agent.books_receive envelope e.world.now)
    refine Eq.trans htask ?_
    rcases s.agent.books.receive_task envelope with ⟨hsame, -⟩ | ⟨hnone, -⟩
    · exact hsame
    · exact absurd hnone held
  | turned actor idle going listed inbox booked => exact booked.task_kept helped
  | bounced move phase gone => rfl

/-! ### Scratch files -/

/-- **Helpers work in scratch files that suit the agent that started them,** and so do those that are
yet to be started. -/
def Engine.Suited (e : Engine) : Prop :=
  ∀ p ∈ e.slots, ¬ p.Closed → (∀ effect ∈ p.phase.pending, effect.Suits p.agent) ∧
    ∀ t ∈ e.slots, t.Helps p.id → t.listed = true → t.phase.pending = [] →
      ∃ scratch ∈ t.agent.scratch, scratch.Suits p.agent

theorem Effect.Suits.keeps {effect : Effect} {a a' : Agent} (h : effect.Suits a)
    (keeps : a.KeepsScratch a') (kind : a'.kind = a.kind) : effect.Suits a' := by
  cases effect with
  | spawn id kind' prompt scratch => exact Scratch.Suits.keeps h keeps kind
  | _ => trivial

/-- An agent keeps its scratch file until its task ends. -/
theorem Acts.scratch (h : Acts e s deed mid errand n) :
    s.agent.KeepsScratch mid.agent ∨ s.Ends mid := by
  have gives : ∀ {a a' : Agent} {phase : Phase}, GivesUp a a' phase →
      a.scratch = s.agent.scratch → s.phase.pending = [] →
      s.agent.KeepsScratch a' ∨ s.Ends { s with agent := a', phase := phase } := by
    intro a a' phase gives hscratch hidle
    cases gives with
    | stuck busy => exact Or.inl (Or.inl hscratch)
    | ended idle payload => exact Or.inr ⟨hidle, _, List.mem_singleton.mpr rfl⟩
  cases h with
  | @heard envelope rest phase inbox =>
    exact Or.inl (Or.inl (s.agent.receive_frame envelope e.world.now).2)
  | began phase begun =>
    obtain ⟨-, -, rfl⟩ := begin_eq_some begun
    exact Or.inl (Or.inl rfl)
  | @completed call prompt response deadline done phase complete =>
    obtain rfl := complete
    have hidle : s.phase.pending = [] := by rw [phase]; rfl
    rcases (complete_scratch e.project prompt response
      ⟨{ s.agent with failures := 0 }, e.world⟩).1 with hkeeps | ⟨-, ending, heffects⟩
    · exact Or.inl hkeeps
    · exact Or.inr ⟨hidle, ending, heffects ▸ List.mem_singleton.mpr rfl⟩
  | despaired turn many gives' => exact gives gives' rfl turn.idle
  | abandoned phase gives' => exact gives gives' rfl (by rw [phase]; rfl)
  | _ => exact Or.inl (Or.inl rfl)

/-- Whoever is yet to be started has a scratch file that suits the agent. -/
theorem Acts.suits (h : Acts e s deed mid errand n)
    (before : ∀ effect ∈ s.phase.pending, effect.Suits s.agent) :
    ∀ effect ∈ mid.phase.pending, effect.Suits mid.agent := by
  have struck : ∀ {first : Effect} {rest : List Effect} {a : Agent},
      s.phase.pending = first :: rest → a.scratch = s.agent.scratch → a.kind = s.agent.kind →
      ∀ effect ∈ rest, effect.Suits a := by
    intro first rest a hpending hscratch hkind effect he
    exact (before effect (hpending ▸ List.mem_cons_of_mem _ he)).keeps (Or.inl hscratch) hkind
  have gives : ∀ {a a' : Agent} {phase : Phase}, GivesUp a a' phase →
      ∀ effect ∈ phase.pending, effect.Suits a' := by
    intro a a' phase gives effect he
    cases gives with
    | stuck busy => cases he
    | ended idle payload =>
      rw [List.mem_singleton.mp he]
      trivial
  cases h with
  | passed passes =>
    rw [passes.pending]
    exact before
  | heard phase inbox =>
    intro effect he
    rw [phase] at he
    cases he
  | began phase begun =>
    intro effect he
    cases he
  | @completed call prompt response deadline done phase complete =>
    obtain rfl := complete
    exact (complete_scratch e.project prompt response ⟨{ s.agent with failures := 0 }, e.world⟩).2
  | retried turn few =>
    intro effect he
    cases he
  | despaired turn many gives' => exact gives gives'
  | revived phase text now =>
    intro effect he
    cases he
  | abandoned phase gives' => exact gives gives'
  | missed phase gone => exact struck (by rw [phase]; rfl) rfl rfl
  | handed phase accepts => exact struck (by rw [phase]; rfl) rfl rfl
  | started phase => exact struck (by rw [phase]; rfl) rfl rfl
  | adopted phase => exact struck (by rw [phase]; rfl) rfl rfl
  | released phase subtree => exact struck (by rw [phase]; rfl) rfl rfl
  | reported phase => exact struck (Slot.pending_of_ending phase) rfl rfl

namespace Engine.Suited

/-- The agent keeps its scratch file over a move, or ends its task. -/
theorem scratch_step (o : Orderly e) {p p' : Slot} (hp : p ∈ e.slots)
    (hp' : p' ∈ (e.step m).slots) (id : p'.id = p.id) :
    p'.agent.kind = p.agent.kind ∧ (p.agent.KeepsScratch p'.agent ∨ p.Ends p') := by
  obtain ⟨mid, hown, htouched⟩ := o.touched hp hp' id
  obtain ⟨hphase, hkind, hscratch, -⟩ := htouched.frame
  refine ⟨(o.nature hp hp' id).1, ?_⟩
  rcases hown with ⟨rfl, -⟩ | ⟨errand, n, acts, -⟩
  · exact Or.inl (Or.inl hscratch)
  · refine acts.scratch.imp (fun hkeeps => ?_) fun hends => ?_
    · rw [Agent.KeepsScratch, hscratch]
      exact hkeeps
    · rw [Slot.Ends, hphase]
      exact hends

/-- A helper that works has the scratch file that it was started with. -/
theorem helper_step (o : Orderly e) (k : Kinship e) {p p' t' : Slot} (h : e.Suited)
    (tied : (e.step m).Tied) (lone : t.Lone) (pair : Pair e m p p' t t') (alive : ¬ p.Closed)
    (listed : t'.listed = true) (pending : t'.phase.pending = []) :
    ∃ scratch ∈ t'.agent.scratch, scratch.Suits p'.agent := by
  have hfares := o.fares_of_id pair.helper pair.helper' pair.helperId
  have hlisted : t.listed = true := by
    cases hlisted : t.listed with
    | true => rfl
    | false => exact absurd (hfares.unlisted hlisted) (by simp [listed])
  have hpending : t.phase.pending = [] := by
    rcases lone.pending pair.helps.1 with hnone | ⟨ending, hending⟩
    · exact hnone
    · exfalso
      have hm : .finish ending ∈ t.phase.pending := hending ▸ List.mem_singleton.mpr rfl
      have hreports : e.deed m t.id ≠ .report ending := fun hdeed => by
        have hgone := (lone.report pair.helps.1 hfares hdeed).1
        rw [listed] at hgone
        cases hgone
      cases hfares with
      | idle deed keeps =>
        rw [keeps.phase, hending] at pending
        cases pending
      | acts acts keeps =>
        rcases acts.finish_kept hm with hkept | hdeed
        · rw [← keeps.phase, pending] at hkept
          cases hkept
        · exact hreports hdeed
  obtain ⟨scratch, hscratch, hsuits⟩ := (h p pair.parent alive).2 t pair.helper pair.helps hlisted
    hpending
  -- neither the helper nor the agent has let go of its scratch file
  have hsame : t'.agent.scratch = t.agent.scratch := by
    rcases (scratch_step o pair.helper pair.helper' pair.helperId).2 with
      (hsame | ⟨hcoder, -⟩) | ⟨-, ending, hm⟩
    · exact hsame
    · have hhelper := pair.helps.1
      rw [hcoder] at hhelper
      cases hhelper
    · rw [pending] at hm
      cases hm
  obtain ⟨hkind, hkeeps | hends⟩ := scratch_step o pair.parent pair.parent' pair.parentId
  · exact ⟨scratch, hsame ▸ hscratch, Scratch.Suits.keeps hsuits hkeeps hkind⟩
  · have hkin : t'.Helps p'.id := by
      rw [pair.parentId]
      exact (k.helps_step o pair.helper pair.helper' pair.helperId).mpr pair.helps
    have hon := ((tied p' pair.parent' pair.live).2 t' pair.helper' hkin).on_of_listed listed
    rw [((o.shift pair.parent pair.parent' pair.parentId).unhelped hends).2] at hon
    cases hon

/-- A helper that has just been started works in the scratch file of its order. -/
theorem entered (o : Orderly e) (k : Kinship e) (lone : ∀ s ∈ e.slots, s.Lone) (h : e.Suited)
    {p p' t' : Slot} (hp : p ∈ e.slots) (alive : ¬ p.Closed) (hp' : p' ∈ (e.step m).slots)
    (id : p'.id = p.id) (ht' : t' ∈ (e.step m).slots) (new : t'.id ∉ e.ids)
    (helps : t'.Helps p.id) : ∃ scratch ∈ t'.agent.scratch, scratch.Suits p'.agent := by
  have htie := Engine.Tied.entered o k lone hp hp' id ht' new helps
  cases o.enters ht' new with
  | @helper x' id' kind prompt name scratch rest retiring mem actor phase slot =>
    obtain rfl : x' = p := by
      refine Engine.eq_of_id_eq o.distinct hp mem ?_
      refine Option.some.inj (Eq.trans ?_ helps.2)
      rw [slot]
      rfl
    have hsuits : scratch.Suits x'.agent := (h x' hp alive).1 (.spawn id' kind prompt scratch) (by
      rw [phase]
      exact List.mem_cons_self)
    refine ⟨scratch, by rw [slot]; rfl, ?_⟩
    obtain ⟨hkind, hkeeps | hends⟩ := scratch_step o hp hp' id
    · exact Scratch.Suits.keeps hsuits hkeeps hkind
    · have hon := htie.on_of_listed (by rw [slot]; rfl)
      rw [((o.shift hp hp' id).unhelped hends).2] at hon
      cases hon
  | entry mem actor phase slot =>
    have hkind := (lone _ mem).adopts _ _ _ (by rw [phase]; exact List.mem_cons_self)
    have hhelper := helps.1
    rw [slot] at hhelper
    exact absurd (hkind.symm.trans hhelper) (by simp)
  | master outside named slot =>
    have hhelper := helps.1
    rw [slot] at hhelper
    cases hhelper

/-- **Every move keeps helpers in files that suit.** -/
theorem step (h : e.Suited) (o : Orderly e) (k : Kinship e) (lone : ∀ s ∈ e.slots, s.Lone)
    (tied : (e.step m).Tied) : (e.step m).Suited := by
  intro p' hp' live
  rcases o.old_or_new hp' with ⟨p, hp, hid⟩ | hnew
  · have halive : ¬ p.Closed := fun closed => live ((o.shift hp hp' hid).closed closed)
    refine ⟨fun effect he => ?_, fun t' ht' helps listed pending => ?_⟩
    · obtain ⟨mid, hown, htouched⟩ := o.touched hp hp' hid
      obtain ⟨hphase, hkind, hscratch, -⟩ := htouched.frame
      rw [hphase] at he
      have hmid : effect.Suits mid.agent := by
        rcases hown with ⟨rfl, -⟩ | ⟨errand, n, acts, -⟩
        · exact (h mid hp halive).1 effect he
        · exact acts.suits (h p hp halive).1 effect he
      exact hmid.keeps (Or.inl hscratch) hkind
    · rw [hid] at helps
      rcases o.old_or_new ht' with ⟨t, ht, htid⟩ | htnew
      · have hhelps := (k.helps_step o ht ht' htid).mp helps
        exact h.helper_step o k tied (lone t ht) ⟨hp, ht, hp', ht', hid, htid, hhelps, live⟩ halive
          listed pending
      · exact h.entered o k lone hp halive hp' hid ht' htnew helps
  · have henters := o.enters hp' hnew
    refine ⟨fun effect he => ?_, fun t' ht' helps listed pending => ?_⟩
    · have hpending : p'.phase.pending = [] := by
        cases henters with
        | helper mem actor phase slot => rw [slot]; rfl
        | entry mem actor phase slot => rw [slot]; rfl
        | master outside named slot => rw [slot]; rfl
      rw [hpending] at he
      cases he
    · have hon := ((tied p' hp' live).2 t' ht' helps).on_of_listed listed
      rw [henters.helpers] at hon
      cases hon

end Engine.Suited

/-! ### Reports -/

/-- The deed is a report. -/
def Deed.isReport : Deed → Bool
  | .report _ => true
  | _ => false

/-- How many times the agent reports along a run. -/
def Engine.reportsBy (e : Engine) (id : AgentId) (moves : List Move) : Nat :=
  (e.trace (fun e m => e.deed m id) moves).countP Deed.isReport

theorem Engine.reportsBy_concat (e : Engine) (id : AgentId) (ran : List Move) (m : Move) :
    e.reportsBy id (ran ++ [m]) =
      e.reportsBy id ran + if ((e.follow ran).deed m id).isReport then 1 else 0 := by
  rw [reportsBy, Engine.trace_concat, List.countP_append, List.countP_singleton]
  rfl

/-- **A helper reports once,** and is off the list then. -/
theorem Launched.reports_once (launched : Launched e) (moves : List Move)
    (hs : s ∈ (e.follow moves).slots) (helper : s.agent.kind.isHelper = true) :
    e.reportsBy s.id moves = 0 ∨
      (e.reportsBy s.id moves = 1 ∧ s.listed = false ∧ s.Spent) := by
  refine launched.slots_follow (P := fun ran s => s.agent.kind.isHelper = true →
    e.reportsBy s.id ran = 0 ∨ (e.reportsBy s.id ran = 1 ∧ s.listed = false ∧ s.Spent))
    ?new ?step moves s hs helper
  case new =>
    intro ran s idle newborn _
    refine Or.inl (List.countP_eq_zero.mpr fun deed hd => ?_)
    rw [idle deed hd]
    simp [Deed.isReport]
  case step =>
    intro ran m s hs s' fares ih helper'
    have helper : s.agent.kind.isHelper = true := fares.kind_eq ▸ helper'
    rw [fares.id_eq, Engine.reportsBy_concat]
    rcases ih helper with hnone | ⟨hone, hgone, hspent⟩
    · cases hdeed : (e.follow ran).deed m s.id with
      | report ending =>
        have hleft := (launched.lone ran hs).report helper fares hdeed
        exact Or.inr ⟨by rw [hnone]; rfl, hleft⟩
      | _ => exact Or.inl (by rw [hnone]; rfl)
    · obtain ⟨hidle, hspent'⟩ := hspent.fares fares
      rw [hidle]
      exact Or.inr ⟨hone, fares.unlisted hgone, hspent'⟩

/-! ### The end of a task and the scratch file -/

/-- **A task that ends lets go of the scratch file.** -/
theorem Acts.ends_site {site : Site} (h : Acts e s deed mid errand n)
    (leaves : s.Leaves e mid site deed) (ends : s.Ends mid) (lasting : s.agent.kind ≠ .master) :
    mid.agent.scratch = none ∧ site = (releaseScratch s.agent e.world.site).2 := by
  obtain ⟨idle, ending, hm⟩ := ends
  have gives : ∀ {a a' : Agent} {phase : Phase}, GivesUp a a' phase →
      .finish ending ∈ phase.pending → a'.scratch = none ∧ phase.pending ≠ [] := by
    intro a a' phase gives hm
    cases gives with
    | stuck busy => cases hm
    | ended idle payload => exact ⟨rfl, by simp [Phase.pending]⟩
  cases h with
  | passed passes =>
    rw [passes.pending, idle] at hm
    cases hm
  | heard phase inbox =>
    rw [phase] at hm
    cases hm
  | began phase begun => cases hm
  | @completed call prompt response deadline done phase complete =>
    obtain rfl := complete
    obtain ⟨hscratch, hsite⟩ := complete_finish
      (d := ⟨{ s.agent with failures := 0 }, e.world⟩) lasting hm
    refine ⟨hscratch, leaves.trans (hsite.trans ?_)⟩
    exact releaseScratch_site (a := s.agent) e.world.site rfl
  | retried turn few => cases hm
  | despaired turn many gives' =>
    obtain ⟨hscratch, hpending⟩ := gives gives' hm
    exact ⟨hscratch, leaves.trans (if_neg hpending)⟩
  | revived phase text now => cases hm
  | abandoned phase gives' =>
    obtain ⟨hscratch, hpending⟩ := gives gives' hm
    exact ⟨hscratch, leaves.trans (if_neg hpending)⟩
  | reported ending =>
    rw [Slot.pending_of_ending ending] at idle
    cases idle
  | _ =>
    rw [‹s.phase = _›] at idle
    cases idle

theorem Orderly.ends_site (o : Orderly e) (hs : s ∈ e.slots) (hs' : s' ∈ (e.step m).slots)
    (id : s'.id = s.id) (ends : s.Ends s') (lasting : s.agent.kind ≠ .master) :
    s'.agent.scratch = none ∧ (e.step m).world.site = (releaseScratch s.agent e.world.site).2 := by
  obtain ⟨mid, hown, htouched⟩ := o.touched hs hs' id
  obtain ⟨hphase, -, hscratch, -⟩ := htouched.frame
  rw [Slot.Ends, hphase] at ends
  rw [hscratch]
  rcases hown with ⟨rfl, -⟩ | ⟨errand, n, acts, leaves⟩
  · obtain ⟨hidle, ending, hm⟩ := ends
    rw [hidle] at hm
    cases hm
  · exact acts.ends_site leaves ends lasting

/-- What the end of a task makes of the agent's scratch file: if the agent owns it, it is gone from the
disk and from the scratch files in use, unless it cannot be removed, and else nothing changes. -/
def Slot.LetsGo (s : Slot) (site site' : Site) : Prop :=
  match s.agent.scratch with
  | some ⟨path, true⟩ =>
    (∀ error, site.files.removeFile path = .error error → error = .notFound) →
      site'.files.exists? path = false ∧ site'.isScratch path = false
  | _ => site' = site

theorem Slot.letsGo_released (s : Slot) (site : Site) :
    s.LetsGo site (releaseScratch s.agent site).2 := by
  unfold Slot.LetsGo
  split
  · next path own => exact releaseScratch_owned own
  · next other => exact releaseScratch_shared site other

theorem Orderly.letsGo (o : Orderly e) (hs : s ∈ e.slots) (hs' : s' ∈ (e.step m).slots)
    (id : s'.id = s.id) (ends : s.Ends s') (lasting : s.agent.kind ≠ .master) :
    s.LetsGo e.world.site (e.step m).world.site := by
  obtain ⟨-, hsite⟩ := o.ends_site hs hs' id ends lasting
  rw [hsite]
  exact s.letsGo_released e.world.site

/-! ### Runs -/

/-- **Along every run agents and helpers are tied,** as long as scratch files can be made. -/
theorem Launched.tied (launched : Launched e) {moves : List Move}
    (made : true ∉ e.trace Engine.spawnFails moves) : (e.follow moves).Tied := by
  induction moves using List.reverseRecOn with
  | nil =>
    intro p hp _
    refine ⟨fun h hh => ?_, fun t ht helps => ?_⟩
    · have hnone : p.agent.helpers = [] := (launched.newborn hp).unused.helpers
      rw [hnone] at hh
      cases hh
    · exact absurd helps.1 (by simp [launched.lasting ht])
  | append_singleton ran m ih =>
    rw [Engine.trace_concat, List.mem_append, not_or] at made
    rw [Engine.follow_concat]
    refine (ih made.1).step (launched.orderly.follow ran) (launched.kinship ran)
      (fun s hs => launched.lone ran hs) (fun s hs => launched.spare ran hs) ?_
    simpa using made.2

/-- **Along every run helpers work in files that suit.** -/
theorem Launched.suited (launched : Launched e) {moves : List Move}
    (made : true ∉ e.trace Engine.spawnFails moves) : (e.follow moves).Suited := by
  induction moves using List.reverseRecOn with
  | nil =>
    intro p hp _
    refine ⟨fun effect he => ?_, fun t ht helps => ?_⟩
    · have hphase : p.phase = .waiting := (launched.newborn hp).phase
      rw [hphase] at he
      cases he
    · exact absurd helps.1 (by simp [launched.lasting ht])
  | append_singleton ran m ih =>
    have htied := launched.tied made
    rw [Engine.trace_concat, List.mem_append, not_or] at made
    rw [Engine.follow_concat] at htied ⊢
    exact (ih made.1).step (launched.orderly.follow ran) (launched.kinship ran)
      (fun s hs => launched.lone ran hs) htied

/-- **Who is on the list of helpers:** it is yet to be started, works, or has sent a report that is yet
to be taken in. -/
inductive Engine.Engaged (e : Engine) (p : Slot) (h : AgentId) : Prop where
  | ordered (orders : p.Orders h)
  | working {t : Slot} (mem : t ∈ e.slots) (id : t.id = h) (helps : t.Helps p.id)
      (listed : t.listed = true)
  | reported {t : Slot} (mem : t ∈ e.slots) (id : t.id = h) (helps : t.Helps p.id)
      (gone : t.listed = false) (mail : p.mailFrom h = 1)

theorem Engine.Tied.mem_helpers_iff {p : Slot} {h : AgentId} (tied : e.Tied) (k : Kinship e)
    (hp : p ∈ e.slots) (live : ¬ p.Closed) : h ∈ p.agent.helpers ↔ e.Engaged p h := by
  obtain ⟨backed, ties⟩ := tied p hp live
  constructor
  · intro on
    rcases backed h on with orders | hin
    · exact .ordered orders
    · obtain ⟨t, ht, rfl⟩ := List.mem_map.mp hin
      have helps := k.helps p hp t ht on
      cases ties t ht helps with
      | working listed serves quiet on => exact .working ht rfl helps listed
      | reported gone spent mail on => exact .reported ht rfl helps gone mail
      | dismissed gone spent quiet off => exact absurd on off
  · intro engaged
    cases engaged with
    | ordered orders => exact k.ordered p hp h orders
    | working mem id helps listed => exact id ▸ (ties _ mem helps).on_of_listed listed
    | @reported t mem id helps gone mail =>
      subst id
      cases ties t mem helps with
      | working listed serves quiet on => exact on
      | reported gone spent mail on => exact on
      | dismissed gone spent quiet off => omega

/-- **The lifecycle of helpers,** along every run in which scratch files can be made. The list of a
live agent has exactly those who are yet to be started, who work, and whose report is yet to be taken
in; as long as there is one, the agent holds on to its task. Who works does so in a scratch file that
suits its agent. A helper reports at most once and is off the list then. Whoever ends a task removes
the scratch file that it owns, and leaves alone one that it shares. -/
theorem helper_lifecycle (launched : Launched e) {moves : List Move}
    (made : true ∉ e.trace Engine.spawnFails moves) :
    (∀ p ∈ (e.follow moves).slots, ¬ p.Closed →
      (∀ h, h ∈ p.agent.helpers ↔ (e.follow moves).Engaged p h) ∧
      (∀ t ∈ (e.follow moves).slots, t.Helps p.id → t.listed = true → t.Serves p.id ∧
        (t.phase.pending = [] → ∃ scratch ∈ t.agent.scratch, scratch.Suits p.agent)) ∧
      (p.agent.helpers ≠ [] → ∀ m, ∀ p' ∈ ((e.follow moves).step m).slots, p'.id = p.id →
        (p.agent.task ≠ none → p'.agent.task = p.agent.task) ∧ ¬ p.Ends p')) ∧
    ∀ s ∈ (e.follow moves).slots,
      (s.agent.kind.isHelper = true → e.reportsBy s.id moves ≤ 1 ∧
        (e.reportsBy s.id moves = 1 → s.listed = false)) ∧
      (s.agent.kind ≠ .master → ∀ m, ∀ s' ∈ ((e.follow moves).step m).slots, s'.id = s.id →
        s.Ends s' → s.LetsGo (e.follow moves).world.site ((e.follow moves).step m).world.site) := by
  have o := launched.orderly.follow moves
  have tied := launched.tied made
  have suited := launched.suited made
  refine ⟨fun p hp live => ⟨fun h => ?_, fun t ht helps listed => ?_, fun helped m p' hp' id => ?_⟩,
    fun s hs => ⟨fun helper => ?_, fun lasting m s' hs' id ends => ?_⟩⟩
  · exact tied.mem_helpers_iff (launched.kinship moves) hp live
  · refine ⟨?_, (suited p hp live).2 t ht helps listed⟩
    cases (tied p hp live).2 t ht helps with
    | working listed serves quiet on => exact serves
    | reported gone spent mail on => exact absurd listed (by simp [gone])
    | dismissed gone spent quiet off => exact absurd listed (by simp [gone])
  · exact (o.shift hp hp' id).holds_on helped
  · rcases launched.reports_once moves hs helper with hnone | ⟨hone, hgone, -⟩
    · exact ⟨by omega, fun hone => by omega⟩
    · exact ⟨by omega, fun _ => hgone⟩
  · exact o.letsGo hs hs' id ends lasting

/-! ### A tester of a coder -/

/-- The coder is given a task and starts a tester, which begins a turn. -/
def shedTester : List Move :=
  [Move.enterRun ⟨1⟩ "go", .admitRun 0, .registerRun 0, .dispatchRun 0] ++
    List.replicate 4 (Move.advance ⟨1⟩) ++
    [Move.answer ⟨1⟩ (.ok "SPAWN TESTER PROMPT=\"t\""), .advance ⟨1⟩] ++
    List.replicate 4 (Move.advance ⟨3⟩)

/-- The tester ends its task. -/
def shedVerdict : Move := .answer ⟨3⟩ (.ok "FINISH PROMPT=\"ok\"")

/-- The tester is engaged by the coder, which holds on to its task, and leaves the coder's scratch file
alone when it ends. -/
theorem helper_lifecycle_shed : Launched shedStart ∧
    true ∉ shedStart.trace Engine.spawnFails shedTester ∧
    (∃ p ∈ (shedStart.follow shedTester).slots, p.id = ⟨1⟩ ∧ p.agent.task ≠ none ∧
      (shedStart.follow shedTester).Engaged p ⟨3⟩ ∧
      ∀ m, ∀ p' ∈ ((shedStart.follow shedTester).step m).slots, p'.id = p.id → ¬ p.Ends p') ∧
    ∃ t ∈ (shedStart.follow shedTester).slots,
      t.agent.scratch = some ⟨⟨"/p/a_scratch.py"⟩, false⟩ ∧
      ((shedStart.follow shedTester).step shedVerdict).world.site =
        (shedStart.follow shedTester).world.site := by
  have made : true ∉ shedStart.trace Engine.spawnFails shedTester := by decide +kernel
  obtain ⟨hlists, hslots⟩ := helper_lifecycle shed_launched made
  refine ⟨shed_launched, made, ?_, ?_⟩
  · have hcoder : ∃ p ∈ (shedStart.follow shedTester).slots, p.id = ⟨1⟩ ∧ p.listed = true ∧
        p.phase = .applying [] false ∧ p.agent.task ≠ none ∧ ⟨3⟩ ∈ p.agent.helpers := by
      decide +kernel
    obtain ⟨p, hp, hid, hlisted, hphase, htask, hon⟩ := hcoder
    have live : ¬ p.Closed := by simp [Slot.Closed, hlisted, hphase]
    obtain ⟨hlist, -, hholds⟩ := hlists p hp live
    refine ⟨p, hp, hid, htask, (hlist ⟨3⟩).mp hon, fun m p' hp' hid' => ?_⟩
    exact (hholds (List.ne_nil_of_mem hon) m p' hp' hid').2
  · have htester : ∃ t ∈ (shedStart.follow shedTester).slots,
        ∃ t' ∈ ((shedStart.follow shedTester).step shedVerdict).slots, t'.id = t.id ∧
          t.agent.kind ≠ .master ∧ t.agent.scratch = some ⟨⟨"/p/a_scratch.py"⟩, false⟩ ∧
          t.phase.pending = [] ∧
          .finish ⟨some ⟨⟨4⟩, "t"⟩, some ⟨1⟩, true, "ok"⟩ ∈ t'.phase.pending := by
      decide +kernel
    obtain ⟨t, ht, t', ht', hid, hkind, hscratch, hidle, hends⟩ := htester
    have hgoes := (hslots t ht).2 hkind shedVerdict t' ht' hid ⟨hidle, _, hends⟩
    rw [Slot.LetsGo, hscratch] at hgoes
    exact ⟨t, ht, hscratch, hgoes⟩

end Arbor
