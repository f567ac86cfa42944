import Arbor.Proofs.Engine.Arrivals

/-! # Who is whose helper

A helper has the agent that started it as its parent, and stands on that agent's list of helpers. Its
number is on no other list: neither another agent's list of helpers, nor among the children of an
entry, those at work, or those that are to be added or let go.

* `Kinship`, `Launched.kinship`: along every run, lists of helpers are apart from each other and from
  all else, and whoever is on one has its owner as parent.
* `Launched.lone`: along every run, helpers have no helpers and ask nothing of others but to report.
* `Kinship.released_with`: a helper is let go only together with the agent on whose list it is. -/

namespace Arbor

open Turn

variable {e e' : Engine} {m : Move} {s s' t mid : Slot} {deed : Deed} {errand : Errand} {n : Nat}

/-! ### Helpers, and all others that an agent names -/

/-- The effect starts the helper `h`. -/
def Effect.starts (h : AgentId) : Effect → Bool
  | .spawn id _ _ _ => id = h
  | _ => false

/-- The agent that an effect adds for an entry, or lets go with it. -/
def Effect.entry? : Effect → Option AgentId
  | .adopt id _ _ => some id
  | .release child => some child
  | _ => none

namespace Slot

/-- The agent has yet to start the helper `h`. -/
def Orders (s : Slot) (h : AgentId) : Prop := ∃ effect ∈ s.phase.pending, effect.starts h

instance (s : Slot) (h : AgentId) : Decidable (s.Orders h) :=
  inferInstanceAs (Decidable (∃ effect ∈ s.phase.pending, effect.starts h = true))

/-- The agent is a helper of `p`. -/
def Helps (s : Slot) (p : AgentId) : Prop :=
  s.agent.kind.isHelper = true ∧ s.agent.parent = some p

instance (s : Slot) (p : AgentId) : Decidable (s.Helps p) :=
  inferInstanceAs (Decidable (s.agent.kind.isHelper = true ∧ s.agent.parent = some p))

/-- Everybody that the agent names, but for its helpers: the agents of its entries, those at work, and
those that are to be added or let go with an entry. -/
def entries (s : Slot) : List AgentId :=
  s.agent.children.map (fun c => c.2.id) ++ s.handedTo ++ s.phase.pending.filterMap Effect.entry?

theorem mem_entries {c : AgentId} :
    c ∈ s.entries ↔ (∃ x ∈ s.agent.children, x.2.id = c) ∨ c ∈ s.handedTo ∨
      ∃ effect ∈ s.phase.pending, effect.entry? = some c := by
  simp only [entries, List.mem_append, List.mem_map, List.mem_filterMap, or_assoc]

theorem IsNewborn.entries (h : s.IsNewborn) : s.entries = s.agent.children.map fun c => c.2.id := by
  rw [Slot.entries, h.handedTo, h.phase]
  simp

end Slot

namespace Booked

variable {b b' : Books} {k k' : Nat} {effects : List Effect} {c : AgentId}

/-- Helpers stay on the list over a turn, and who is new there has a new number. -/
theorem helpers (h : Booked b k b' k' effects) :
    (c ∈ b.helpers → c ∈ b'.helpers) ∧
      (c ∈ b'.helpers → c ∈ b.helpers ∨ k ≤ c.number ∧ c.number < k') := by
  cases h with
  | nothing => exact ⟨id, Or.inl⟩
  | adopted free lasting => exact ⟨id, Or.inl⟩
  | dropped child idle => exact ⟨id, Or.inl⟩
  | handed children =>
    rw [Books.handAll_eq]
    exact ⟨id, Or.inl⟩
  | hired started =>
    refine ⟨List.mem_append_left _, fun hc => ?_⟩
    exact (List.mem_append.mp hc).imp_right mem_freshIds.mp
  | retired idle task origin => exact ⟨id, Or.inl⟩

/-- Whoever is to be started is on the list. -/
theorem starts (h : Booked b k b' k' effects) {effect : Effect} (he : effect ∈ effects)
    (starts : effect.starts c) : c ∈ b'.helpers := by
  cases effect with
  | spawn id kind prompt scratch =>
    obtain rfl : id = c := by simpa [Effect.starts] using starts
    cases h with
    | nothing => cases he
    | adopted free lasting => cases List.mem_singleton.mp he
    | dropped child idle => cases List.mem_singleton.mp he
    | handed children =>
      obtain ⟨order, -, task, heq⟩ := mem_tasksFrom he
      cases heq
    | hired started =>
      obtain ⟨x, hx, hsome⟩ := helper?_of_started started he
      obtain rfl := Option.some.inj hsome
      exact List.mem_append_right _ hx
    | retired idle task origin => cases List.mem_singleton.mp he
  | _ => cases starts

/-- Whoever is named anew over a turn, other than as a helper, has a new number, and then no helper
is new. -/
theorem entries (h : Booked b k b' k' effects)
    (hc : (∃ x ∈ b'.children, x.2.id = c) ∨ c ∈ b'.handedTo ∨
      ∃ effect ∈ effects, effect.entry? = some c) :
    ((∃ x ∈ b.children, x.2.id = c) ∨ c ∈ b.handedTo) ∨
      (k ≤ c.number ∧ c.number < k' ∧ b'.helpers = b.helpers) := by
  cases h with
  | nothing =>
    rcases hc with hc | hc | ⟨effect, he, -⟩
    · exact Or.inl (Or.inl hc)
    · exact Or.inl (Or.inr hc)
    · cases he
  | adopted free lasting =>
    rcases hc with ⟨x, hx, rfl⟩ | hc | ⟨effect, he, hentry⟩
    · rcases Table.mem_put hx with rfl | hx
      · exact Or.inr ⟨Nat.le_refl _, Nat.lt_succ_self _, rfl⟩
      · exact Or.inl (Or.inl ⟨x, hx, rfl⟩)
    · exact Or.inl (Or.inr hc)
    · obtain rfl := List.mem_singleton.mp he
      obtain rfl := Option.some.inj hentry
      exact Or.inr ⟨Nat.le_refl _, Nat.lt_succ_self _, rfl⟩
  | @dropped entry link child idle =>
    rcases hc with ⟨x, hx, rfl⟩ | hc | ⟨effect, he, hentry⟩
    · exact Or.inl (Or.inl ⟨x, (List.mem_filter.mp hx).1, rfl⟩)
    · exact Or.inl (Or.inr hc)
    · obtain rfl := List.mem_singleton.mp he
      obtain rfl := Option.some.inj hentry
      exact Or.inl (Or.inl ⟨_, Table.mem_of_get? child, rfl⟩)
  | @handed orders children =>
    rcases hc with hc | hc | ⟨effect, he, hentry⟩
    · rw [Books.handAll_eq] at hc
      exact Or.inl (Or.inl hc)
    · rcases Books.mem_handedTo_handAll.mp hc with hc | hc
      · obtain ⟨order, horder, rfl⟩ := List.mem_map.mp hc
        obtain ⟨entry, link, hget, hid⟩ := children order horder
        exact Or.inl (Or.inl ⟨_, Table.mem_of_get? hget, hid⟩)
      · exact Or.inl (Or.inr hc)
    · obtain ⟨order, -, task, rfl⟩ := mem_tasksFrom he
      cases hentry
  | hired started =>
    rcases hc with hc | hc | ⟨effect, he, hentry⟩
    · exact Or.inl (Or.inl hc)
    · exact Or.inl (Or.inr hc)
    · obtain ⟨x, -, hsome⟩ := helper?_of_started started he
      cases effect with
      | spawn id kind prompt scratch => cases hentry
      | _ => cases hsome
  | retired idle task origin =>
    rcases hc with hc | hc | ⟨effect, he, hentry⟩
    · exact Or.inl (Or.inl hc)
    · exact Or.inl (Or.inr hc)
    · obtain rfl := List.mem_singleton.mp he
      cases hentry

/-- A task ends only when nobody helps the agent. -/
theorem finish_idle (h : Booked b k b' k' effects) {ending : Ending}
    (hm : .finish ending ∈ effects) : b'.helpers = [] := by
  cases h with
  | nothing => cases hm
  | adopted free lasting => cases List.mem_singleton.mp hm
  | dropped child idle => cases List.mem_singleton.mp hm
  | handed children =>
    obtain ⟨order, -, task, heq⟩ := mem_tasksFrom hm
    cases heq
  | hired started =>
    obtain ⟨x, -, hsome⟩ := helper?_of_started started hm
    cases hsome
  | retired idle task origin => exact idle.2

/-- Whoever is added for an entry is no helper. -/
theorem adopts (h : Booked b k b' k' effects) {kind : Kind} {path : Path}
    (hm : .adopt c kind path ∈ effects) : kind.isHelper = false := by
  cases h with
  | nothing => cases hm
  | adopted free lasting =>
    cases List.mem_singleton.mp hm
    exact lasting
  | dropped child idle => cases List.mem_singleton.mp hm
  | handed children =>
    obtain ⟨order, -, task, heq⟩ := mem_tasksFrom hm
    cases heq
  | hired started =>
    obtain ⟨x, -, hsome⟩ := helper?_of_started started hm
    cases hsome
  | retired idle task origin => cases List.mem_singleton.mp hm

end Booked

/-- Taking in an envelope strikes at most its sender off the list of helpers. -/
theorem Books.helpers_receive {b : Books} (envelope : Envelope) {c : AgentId} :
    (c ∈ (b.receive envelope).helpers → c ∈ b.helpers) ∧
      (c ∈ b.helpers → c ∈ (b.receive envelope).helpers ∨
        ∃ r, envelope = .report r ∧ r.sender = c) := by
  cases envelope with
  | plain text => exact ⟨fun hc => hc, Or.inl⟩
  | task sender task =>
    simp only [Books.receive]
    split <;> exact ⟨fun hc => hc, Or.inl⟩
  | report r =>
    simp only [Books.receive]
    split
    · exact ⟨fun hc => hc, Or.inl⟩
    · split
      · exact ⟨fun hc => hc, Or.inl⟩
      · refine ⟨fun hc => (List.mem_filter.mp hc).1, fun hc => ?_⟩
        by_cases h : c = r.sender
        · exact Or.inr ⟨r, rfl, h.symm⟩
        · exact Or.inl (List.mem_filter.mpr ⟨hc, by simpa using h⟩)

namespace Shift

variable {c : AgentId}

/-- Who is on the list of helpers was there before, or has a new number and comes of a turn. -/
theorem helpers_cases (h : Shift e m e' s s') (hc : c ∈ s'.agent.helpers) :
    c ∈ s.agent.helpers ∨
      (e.world.nextNumber ≤ c.number ∧ c.number < e'.world.nextNumber ∧ m.actor? = some s.id) := by
  cases h with
  | calm calm =>
    have hsame : s'.agent.helpers = s.agent.helpers := congrArg Books.helpers calm.books
    exact Or.inl (hsame ▸ hc)
  | @received envelope rest move phase inbox =>
    have hbooks := congrArg Books.helpers (s.agent.books_receive envelope e.world.now)
    have hc' : c ∈ (s.agent.receive envelope e.world.now).books.helpers := hc
    rw [hbooks] at hc'
    exact Or.inl ((Books.helpers_receive envelope).1 hc')
  | turned actor idle going listed inbox booked =>
    exact (booked.helpers.2 hc).imp_right fun h => ⟨h.1, h.2, actor⟩
  | bounced move phase gone => exact Or.inl hc

/-- Whoever is on the list of helpers stays there, unless it reports. -/
theorem helpers_kept (h : Shift e m e' s s') (hc : c ∈ s.agent.helpers) :
    c ∈ s'.agent.helpers ∨
      (m = .advance s.id ∧ s.phase = .delivering ∧
        ∃ r rest, s.inbox = .report r :: rest ∧ r.sender = c) := by
  cases h with
  | calm calm =>
    have hsame : s'.agent.helpers = s.agent.helpers := congrArg Books.helpers calm.books
    exact Or.inl (hsame.symm ▸ hc)
  | @received envelope rest move phase inbox =>
    have hbooks := congrArg Books.helpers (s.agent.books_receive envelope e.world.now)
    rcases (Books.helpers_receive (b := s.agent.books) envelope).2 hc with hc | ⟨r, rfl, hr⟩
    · rw [← hbooks] at hc
      exact Or.inl hc
    · exact Or.inr ⟨move, phase, r, rest, inbox, hr⟩
  | turned actor idle going listed inbox booked => exact Or.inl (booked.helpers.1 hc)
  | bounced move phase gone => exact Or.inl hc

/-- Whoever is named, other than as a helper, was named before, or has a new number and comes of a
turn that starts no helper. -/
theorem entries_cases (h : Shift e m e' s s') (hc : c ∈ s'.entries) :
    c ∈ s.entries ∨
      (e.world.nextNumber ≤ c.number ∧ c.number < e'.world.nextNumber ∧ m.actor? = some s.id ∧
        s'.agent.helpers = s.agent.helpers) := by
  rw [Slot.mem_entries] at hc
  cases h with
  | calm calm =>
    have hchildren : s'.agent.children = s.agent.children := congrArg Books.children calm.books
    have hhanded : s'.handedTo = s.handedTo := congrArg Books.handedTo calm.books
    obtain ⟨done, hdone, -⟩ := calm.pending
    rw [hchildren, hhanded] at hc
    refine Or.inl (Slot.mem_entries.mpr (hc.imp_right (Or.imp_right ?_)))
    rintro ⟨effect, he, hentry⟩
    exact ⟨effect, hdone ▸ List.mem_append_right _ he, hentry⟩
  | @received envelope rest move phase inbox =>
    have hbooks := s.agent.books_receive envelope e.world.now
    have hchildren := s.agent.receive_children envelope e.world.now
    refine Or.inl (Slot.mem_entries.mpr ?_)
    rcases hc with hc | hc | hc
    · exact Or.inl (hchildren ▸ hc)
    · rw [Slot.handedTo, hbooks] at hc
      exact Or.inr (Or.inl (Books.mem_handedTo_of_receive hc))
    · exact Or.inr (Or.inr hc)
  | turned actor idle going listed inbox booked =>
    rcases booked.entries hc with hc | ⟨hle, hlt, hhelpers⟩
    · refine Or.inl (Slot.mem_entries.mpr ?_)
      exact hc.imp_right Or.inl
    · exact Or.inr ⟨hle, hlt, actor, hhelpers⟩
  | @bounced child task rest retiring move phase gone =>
    refine Or.inl (Slot.mem_entries.mpr (hc.imp_right ?_))
    rintro (hc | ⟨effect, he, hentry⟩)
    · exact Or.inl ((Books.mem_handedTo_dismiss (b := s.agent.books)).mp hc).1
    · exact Or.inr ⟨effect, by rw [phase]; exact List.mem_cons_of_mem _ he, hentry⟩

/-- Whoever is to be started is on the list of helpers. -/
theorem orders (h : Shift e m e' s s') (before : s.Orders c → c ∈ s.agent.helpers)
    (orders : s'.Orders c) : c ∈ s'.agent.helpers := by
  obtain ⟨effect, he, hstarts⟩ := orders
  cases h with
  | calm calm =>
    obtain ⟨done, hdone, -⟩ := calm.pending
    have hsame : s'.agent.helpers = s.agent.helpers := congrArg Books.helpers calm.books
    rw [hsame]
    exact before ⟨effect, hdone ▸ List.mem_append_right _ he, hstarts⟩
  | received move phase inbox =>
    rw [phase] at he
    cases he
  | turned actor idle going listed inbox booked => exact booked.starts he hstarts
  | bounced move phase gone =>
    refine before ⟨effect, ?_, hstarts⟩
    rw [phase]
    exact List.mem_cons_of_mem _ he

end Shift

/-! ### Helpers are alone -/

/-- A helper has no helpers, and asks nothing of others but to report; and whoever is added for an
entry is no helper. -/
structure Slot.Lone (s : Slot) : Prop where
  helpers : s.agent.kind.isHelper = true → s.agent.helpers = []
  pending : s.agent.kind.isHelper = true →
    s.phase.pending = [] ∨ ∃ ending, s.phase.pending = [.finish ending]
  adopts : ∀ id kind path, .adopt id kind path ∈ s.phase.pending → kind.isHelper = false

namespace Slot.Lone

theorem keeps (h : s.Lone) (keeps : s.Keeps s') : s'.Lone := by
  have hkind : s'.agent.kind = s.agent.kind := congrArg Books.kind keeps.books
  have hhelpers : s'.agent.helpers = s.agent.helpers := congrArg Books.helpers keeps.books
  constructor
  · rw [hkind, hhelpers]
    exact h.helpers
  · rw [hkind, keeps.phase]
    exact h.pending
  · rw [keeps.phase]
    exact h.adopts

/-- An agent that goes on with the rest of its effects. -/
theorem struck {effect : Effect} {rest : List Effect} (h : s.Lone)
    (pending : s.phase.pending = effect :: rest) {a : Agent} {listed retiring : Bool}
    (kind : a.kind = s.agent.kind) (helpers : a.helpers = s.agent.helpers) :
    Slot.Lone { s with agent := a, listed := listed, phase := .applying rest retiring } := by
  constructor
  · intro hk
    rw [kind] at hk
    exact helpers.trans (h.helpers hk)
  · intro hk
    simp only [kind] at hk
    rcases h.pending hk with hnone | ⟨ending, hone⟩
    · rw [hnone] at pending
      cases pending
    · rw [hone] at pending
      exact Or.inl (List.cons.inj pending).2.symm
  · intro id kind path hm
    exact h.adopts id kind path (pending ▸ List.mem_cons_of_mem _ hm)

/-- An agent that has nothing left to ask. -/
theorem idle {phase : Phase} (pending : phase.pending = []) {a : Agent}
    (helpers : a.kind.isHelper = true → a.helpers = []) :
    Slot.Lone { s with agent := a, phase := phase } :=
  ⟨helpers, fun _ => Or.inl pending, fun id kind path hm => by
    rw [show ({ s with agent := a, phase := phase } : Slot).phase.pending = [] from pending] at hm
    cases hm⟩

theorem gives {a a' : Agent} {phase : Phase} (gives : GivesUp a a' phase)
    (helpers : a.kind.isHelper = true → a.helpers = []) :
    Slot.Lone { s with agent := a', phase := phase } := by
  cases gives with
  | stuck busy => exact .idle rfl helpers
  | ended idle payload =>
    refine ⟨helpers, fun _ => Or.inr ⟨_, rfl⟩, fun id kind path hm => ?_⟩
    cases List.mem_singleton.mp hm

theorem acts (h : s.Lone) (spare : s.Spare) (acts : Acts e s deed mid errand n) : mid.Lone := by
  cases acts with
  | passed passes =>
    refine ⟨h.helpers, ?_, ?_⟩
    · rw [passes.pending]
      exact h.pending
    · rw [passes.pending]
      exact h.adopts
  | @heard envelope rest phase inbox =>
    have hbooks := s.agent.books_receive envelope e.world.now
    have hkind : (s.agent.receive envelope e.world.now).kind = s.agent.kind :=
      (congrArg Books.kind hbooks).trans (s.agent.books.receive_kind envelope)
    refine ⟨fun hk => List.eq_nil_iff_forall_not_mem.mpr fun c hc => ?_, ?_, h.adopts⟩
    · have hc' : c ∈ (s.agent.receive envelope e.world.now).books.helpers := hc
      rw [hbooks] at hc'
      have hold : c ∈ s.agent.helpers := (Books.helpers_receive envelope).1 hc'
      rw [hkind] at hk
      rw [h.helpers hk] at hold
      cases hold
    · rw [hkind]
      exact h.pending
  | began phase begun =>
    obtain ⟨-, -, rfl⟩ := begin_eq_some begun
    exact .idle rfl h.helpers
  | @completed call prompt response deadline done phase complete =>
    have hbooked := booked_of_completed complete
    obtain rfl := complete
    have hkind : _ = s.agent.kind := hbooked.kind_eq
    have hhelper (hk : s.agent.kind.isHelper = true) := complete_helper e.project prompt response
      ⟨{ s.agent with failures := 0 }, e.world⟩ hk (spare hk).1
    refine ⟨fun hk => ?_, fun hk => ?_, fun id kind path hm => ?_⟩
    · have hk' : s.agent.kind.isHelper = true := hkind ▸ hk
      exact (hhelper hk').2.trans (h.helpers hk')
    · exact (hhelper (hkind ▸ hk)).1
    · exact hbooked.adopts hm
  | retried turn few => exact .idle rfl h.helpers
  | despaired turn many gives => exact .gives gives h.helpers
  | revived phase text now => exact .idle rfl h.helpers
  | abandoned phase gives => exact .gives gives h.helpers
  | missed phase gone => exact h.struck (by rw [phase]; rfl) rfl rfl
  | handed phase accepts => exact h.struck (by rw [phase]; rfl) rfl rfl
  | started phase => exact h.struck (by rw [phase]; rfl) rfl rfl
  | adopted phase => exact h.struck (by rw [phase]; rfl) rfl rfl
  | released phase subtree => exact h.struck (by rw [phase]; rfl) rfl rfl
  | reported phase => exact h.struck (Slot.pending_of_ending phase) rfl rfl

end Slot.Lone

/-- **Along every run helpers are alone.** -/
theorem Launched.lone (launched : Launched e) (moves : List Move)
    (hs : s ∈ (e.follow moves).slots) : s.Lone := by
  refine launched.slots_follow (P := fun _ s => s.Lone) ?new ?step moves s hs
  case new =>
    intro ran s idle newborn
    have hpending : s.phase.pending = [] := by
      rw [newborn.phase]
      rfl
    refine ⟨fun _ => newborn.unused.helpers, fun _ => Or.inl hpending, fun id kind path hm => ?_⟩
    rw [hpending] at hm
    cases hm
  case step =>
    intro ran m s hs s' fares lone
    cases fares with
    | idle deed keeps => exact lone.keeps keeps
    | acts acts keeps => exact (lone.acts (launched.spare ran hs) acts).keeps keeps

/-! ### The kinship of an engine -/

/-- **Who is on which list.** -/
structure Kinship (e : Engine) : Prop where
  /-- Helpers have numbers that were given out. -/
  hired : ∀ s ∈ e.slots, ∀ h ∈ s.agent.helpers, h.number < e.world.nextNumber
  /-- So has everybody else that is named. -/
  entered : ∀ s ∈ e.slots, ∀ c ∈ s.entries, c.number < e.world.nextNumber
  /-- A helper is on one list. -/
  apart : ∀ s ∈ e.slots, ∀ t ∈ e.slots, ∀ h ∈ s.agent.helpers, h ∈ t.agent.helpers → s.id = t.id
  /-- It is named nowhere else. -/
  disjoint : ∀ s ∈ e.slots, ∀ t ∈ e.slots, ∀ h ∈ s.agent.helpers, h ∉ t.entries
  /-- Whoever is to be started is on the list. -/
  ordered : ∀ s ∈ e.slots, ∀ h, s.Orders h → h ∈ s.agent.helpers
  /-- Whoever is on the list is a helper of its owner. -/
  helps : ∀ s ∈ e.slots, ∀ t ∈ e.slots, t.id ∈ s.agent.helpers → t.Helps s.id
  /-- The parent of a helper has a slot. -/
  housed : ∀ t ∈ e.slots, t.agent.kind.isHelper = true → ∃ p ∈ e.ids, t.agent.parent = some p
  /-- Whoever has reported has a slot. -/
  known : ∀ s ∈ e.slots, ∀ r, .report r ∈ s.inbox → r.sender ∈ e.ids
  rooted : e.root ∈ e.ids
  /-- The root is no helper. -/
  lasting : ∀ s ∈ e.slots, s.id = e.root → s.agent.kind.isHelper = false

namespace Enters

theorem helpers (h : Enters e m t) : t.agent.helpers = [] := by
  cases h with
  | helper mem actor phase slot => rw [slot]; rfl
  | entry mem actor phase slot => rw [slot]; rfl
  | master outside named slot => rw [slot]; rfl

/-- A helper is added by the one on whose list it is. -/
theorem orders (h : Enters e m t) (lone : ∀ s ∈ e.slots, s.Lone)
    (helper : t.agent.kind.isHelper = true) :
    ∃ x ∈ e.slots, m.actor? = some x.id ∧ x.Orders t.id ∧ t.agent.parent = some x.id := by
  cases h with
  | @helper x id kind prompt name scratch rest retiring mem actor phase slot =>
    refine ⟨x, mem, actor, ⟨.spawn id kind prompt scratch, ?_, ?_⟩, by rw [slot]; rfl⟩
    · rw [phase]
      exact List.mem_cons_self
    · rw [slot]
      simp [Effect.starts, Slot.newborn, Slot.id, Agent.fresh]
  | @entry x id kind path name rest retiring mem actor phase slot =>
    have hkind := (lone x mem).adopts id kind path (by rw [phase]; exact List.mem_cons_self)
    rw [slot] at helper
    exact absurd (hkind.symm.trans helper) (by simp)
  | master outside named slot =>
    rw [slot] at helper
    cases helper

/-- Whoever is added for an entry was named as such. -/
theorem named (h : Enters e m t) (lasting : t.agent.kind.isHelper = false) :
    (∃ x ∈ e.slots, t.id ∈ x.entries) ∨
      (m.actor? = none ∧ t.id = ⟨e.world.nextNumber⟩) := by
  cases h with
  | helper mem actor phase slot =>
    rw [slot] at lasting
    cases lasting
  | @entry x id kind path name rest retiring mem actor phase slot =>
    refine Or.inl ⟨x, mem, Slot.mem_entries.mpr (Or.inr (Or.inr ⟨.adopt id kind path, ?_, ?_⟩))⟩
    · rw [phase]
      exact List.mem_cons_self
    · rw [slot]
      rfl
  | master outside named slot => exact Or.inr ⟨outside, by rw [slot]; rfl⟩

/-- Only a master has somebody to name from the start: the root. -/
theorem entries (h : Enters e m t) {c : AgentId} (hc : c ∈ t.entries) : c = e.root := by
  cases h with
  | helper mem actor phase slot =>
    rw [slot] at hc
    cases hc
  | entry mem actor phase slot =>
    rw [slot] at hc
    cases hc
  | master outside named slot =>
    rw [slot] at hc
    exact (List.mem_singleton.mp hc).trans named

end Enters

namespace Kinship

/-- The root is on no list of helpers. -/
theorem root_not_helper (k : Kinship e) (hs : s ∈ e.slots) : e.root ∉ s.agent.helpers := by
  intro h
  obtain ⟨t, ht, hid⟩ := List.mem_map.mp k.rooted
  have hhelps := k.helps s hs t ht (hid ▸ h)
  rw [Slot.Helps, k.lasting t ht hid] at hhelps
  cases hhelps.1

/-- Helpers stay with their parent. -/
theorem helps_step (k : Kinship e) (o : Orderly e) {p : AgentId} (ht : t ∈ e.slots)
    (hs' : s' ∈ (e.step m).slots) (id : s'.id = t.id) : s'.Helps p ↔ t.Helps p := by
  obtain ⟨hkind, hparent⟩ := o.nature ht hs' id
  unfold Slot.Helps
  rw [hkind]
  refine and_congr_right fun hk => ?_
  rw [hparent fun hroot => ?_]
  rw [k.lasting t ht hroot] at hk
  cases hk

/-- Who is on a list of helpers was on the same list before, or is new and comes of the turn of its
owner. -/
theorem helper_origin (o : Orderly e) (hs' : s' ∈ (e.step m).slots) {h : AgentId}
    (hh : h ∈ s'.agent.helpers) : ∃ s ∈ e.slots, s'.id = s.id ∧
      (h ∈ s.agent.helpers ∨ (e.world.nextNumber ≤ h.number ∧
        h.number < (e.step m).world.nextNumber ∧ m.actor? = some s.id)) := by
  rcases o.old_or_new hs' with ⟨s, hs, hid⟩ | hnew
  · exact ⟨s, hs, hid, (o.shift hs hs' hid).helpers_cases hh⟩
  · rw [(o.enters hs' hnew).helpers] at hh
    cases hh

theorem disjoint_step (k : Kinship e) (o : Orderly e) {t' : Slot} (hs' : s' ∈ (e.step m).slots)
    (ht' : t' ∈ (e.step m).slots) {h : AgentId} (hhs : h ∈ s'.agent.helpers) : h ∉ t'.entries := by
  intro hht
  obtain ⟨s, hs, hsid, hh⟩ := helper_origin o hs' hhs
  rcases o.old_or_new ht' with ⟨t, ht, htid⟩ | hnew
  · rcases (o.shift ht ht' htid).entries_cases hht with hold | ⟨hle', -, hactor', hsame⟩
    · rcases hh with hh | ⟨hle, -, -⟩
      · exact k.disjoint s hs t ht h hh hold
      · exact absurd (k.entered t ht h hold) (Nat.not_lt.mpr hle)
    · rcases hh with hh | ⟨hle, -, hactor⟩
      · exact absurd (k.hired s hs h hh) (Nat.not_lt.mpr hle')
      · -- one turn would start a helper and add the agent of an entry
        obtain rfl : t = s := Engine.eq_of_id_eq o.distinct hs ht
          (Option.some.inj (hactor'.symm.trans hactor))
        obtain rfl := Engine.eq_of_id_eq (o.step m).distinct hs' ht' (htid.trans hsid.symm)
        rw [hsame] at hhs
        exact absurd (k.hired t ht h hhs) (Nat.not_lt.mpr hle)
  · obtain rfl := (o.enters ht' hnew).entries hht
    rcases hh with hh | ⟨hle, -, -⟩
    · exact k.root_not_helper hs hh
    · obtain ⟨t, ht, hid⟩ := List.mem_map.mp k.rooted
      rw [← hid] at hle
      exact absurd (o.numbered t ht) (Nat.not_lt.mpr hle)

/-- Who enters is on a list only as a helper of its owner. -/
theorem helps_of_enters (k : Kinship e) (lone : ∀ s ∈ e.slots, s.Lone) {t' : Slot}
    (enters : Enters e m t') (hs : s ∈ e.slots)
    (hh : t'.id ∈ s.agent.helpers ∨ (e.world.nextNumber ≤ t'.id.number ∧
      t'.id.number < (e.step m).world.nextNumber ∧ m.actor? = some s.id)) : t'.Helps s.id := by
  cases hk : t'.agent.kind.isHelper with
  | true =>
    obtain ⟨x, hx, -, horders, hparent⟩ := enters.orders lone hk
    have hlist := k.ordered x hx t'.id horders
    rcases hh with hh | ⟨hle, -, -⟩
    · rw [k.apart s hs x hx t'.id hh hlist]
      exact ⟨hk, hparent⟩
    · exact absurd (k.hired x hx t'.id hlist) (Nat.not_lt.mpr hle)
  | false =>
    rcases enters.named hk with ⟨x, hx, hentry⟩ | ⟨houtside, hid⟩
    · rcases hh with hh | ⟨hle, -, -⟩
      · exact absurd hentry (k.disjoint s hs x hx t'.id hh)
      · exact absurd (k.entered x hx t'.id hentry) (Nat.not_lt.mpr hle)
    · rcases hh with hh | ⟨-, -, hactor⟩
      · have hlt := k.hired s hs t'.id hh
        rw [hid] at hlt
        exact absurd hlt (Nat.lt_irrefl _)
      · rw [houtside] at hactor
        cases hactor

/-- **Every move keeps the kinship.** -/
theorem step (k : Kinship e) (o : Orderly e) (lone : ∀ s ∈ e.slots, s.Lone) (m : Move) :
    Kinship (e.step m) := by
  have hnumber := o.number_le_step m
  have hframe := step_frame o.distinct m
  constructor
  case hired =>
    intro s' hs' h hh
    obtain ⟨s, hs, -, hold | ⟨-, hlt, -⟩⟩ := helper_origin o hs' hh
    · exact Nat.lt_of_lt_of_le (k.hired s hs h hold) hnumber
    · exact hlt
  case entered =>
    intro s' hs' c hc
    rcases o.old_or_new hs' with ⟨s, hs, hid⟩ | hnew
    · rcases (o.shift hs hs' hid).entries_cases hc with hold | ⟨-, hlt, -⟩
      · exact Nat.lt_of_lt_of_le (k.entered s hs c hold) hnumber
      · exact hlt
    · obtain ⟨t, ht, hid⟩ := List.mem_map.mp k.rooted
      rw [(o.enters hs' hnew).entries hc, ← hid]
      exact Nat.lt_of_lt_of_le (o.numbered t ht) hnumber
  case apart =>
    intro s' hs' t' ht' h hhs hht
    obtain ⟨s, hs, hsid, hhs⟩ := helper_origin o hs' hhs
    obtain ⟨t, ht, htid, hht⟩ := helper_origin o ht' hht
    rw [hsid, htid]
    rcases hhs with hhs | ⟨hle, -, hactor⟩ <;> rcases hht with hht | ⟨hle', -, hactor'⟩
    · exact k.apart s hs t ht h hhs hht
    · exact absurd (k.hired s hs h hhs) (Nat.not_lt.mpr hle')
    · exact absurd (k.hired t ht h hht) (Nat.not_lt.mpr hle)
    · exact Option.some.inj (hactor.symm.trans hactor')
  case disjoint => exact fun s' hs' t' ht' h hh => k.disjoint_step o hs' ht' hh
  case ordered =>
    intro s' hs' h horders
    rcases o.old_or_new hs' with ⟨s, hs, hid⟩ | hnew
    · exact (o.shift hs hs' hid).orders (k.ordered s hs h) horders
    · have hnewborn := ((o.fares m hs').resolve_left ?_).2
      · obtain ⟨effect, he, -⟩ := horders
        rw [hnewborn.phase] at he
        cases he
      · rintro ⟨s, hs, hfares⟩
        exact hnew (hfares.id_eq ▸ List.mem_map_of_mem hs)
  case helps =>
    intro s' hs' t' ht' hh
    obtain ⟨s, hs, hsid, hh⟩ := helper_origin o hs' hh
    rw [hsid]
    rcases o.old_or_new ht' with ⟨t, ht, htid⟩ | hnew
    · rw [htid] at hh
      rw [k.helps_step o ht ht' htid]
      rcases hh with hh | ⟨hle, -, -⟩
      · exact k.helps s hs t ht hh
      · exact absurd (o.numbered t ht) (Nat.not_lt.mpr hle)
    · exact k.helps_of_enters lone (o.enters ht' hnew) hs hh
  case housed =>
    intro t' ht' hk
    rcases o.old_or_new ht' with ⟨t, ht, htid⟩ | hnew
    · obtain ⟨hkind, -⟩ := o.nature ht ht' htid
      obtain ⟨p, hp, hparent⟩ := k.housed t ht (hkind ▸ hk)
      exact ⟨p, o.mem_ids_step hp, ((k.helps_step o ht ht' htid).mpr ⟨hkind ▸ hk, hparent⟩).2⟩
    · obtain ⟨x, hx, -, -, hparent⟩ := (o.enters ht' hnew).orders lone hk
      exact ⟨x.id, o.mem_ids_step (List.mem_map_of_mem hx), hparent⟩
  case known =>
    intro s' hs' r hr
    rcases o.report_arrives m hs' hr with ⟨s, hs, -, hr⟩ | ⟨hrouted, -⟩
    · exact o.mem_ids_step (k.known s hs r hr)
    · obtain ⟨x, hx, ending, -, -, hreport⟩ := Engine.routed?_eq_some hrouted
      obtain ⟨task, -, rfl⟩ := Option.map_eq_some_iff.mp hreport
      exact o.mem_ids_step (List.mem_map_of_mem hx)
  case rooted =>
    rw [hframe.2]
    exact o.mem_ids_step k.rooted
  case lasting =>
    intro s' hs' hroot
    rw [hframe.2] at hroot
    rcases o.old_or_new hs' with ⟨s, hs, hid⟩ | hnew
    · rw [(o.nature hs hs' hid).1]
      exact k.lasting s hs (hid.symm.trans hroot)
    · exact absurd (hroot ▸ k.rooted) hnew

end Kinship

/-- **Along every run there is kinship.** -/
theorem Launched.kinship (launched : Launched e) (moves : List Move) :
    Kinship (e.follow moves) := by
  induction moves using List.reverseRecOn with
  | nil =>
    obtain ⟨-, hnumbered, hchildren, hroot⟩ := launched.staffed
    have hhelpers : ∀ s ∈ e.slots, s.agent.helpers = [] := fun s hs =>
      (launched.newborn hs).unused.helpers
    have hlasting : ∀ s ∈ e.slots, s.agent.kind.isHelper = false := fun s hs => launched.lasting hs
    have none : ∀ {s : Slot} {h : AgentId} {P : Prop}, s ∈ e.slots → h ∈ s.agent.helpers → P := by
      intro s h P hs hh
      rw [hhelpers s hs] at hh
      cases hh
    constructor
    case hired => exact fun s hs h hh => none hs hh
    case entered =>
      intro s hs c hc
      rw [(launched.newborn hs).entries] at hc
      obtain ⟨x, hx, rfl⟩ := List.mem_map.mp hc
      obtain ⟨t, ht, hid⟩ := List.mem_map.mp (hchildren s hs x hx)
      rw [← hid]
      exact hnumbered t ht
    case apart => exact fun s hs t ht h hh => none hs hh
    case disjoint => exact fun s hs t ht h hh => none hs hh
    case ordered =>
      rintro s hs h ⟨effect, he, -⟩
      have he' : effect ∈ s.phase.pending := he
      rw [(launched.idle hs).2.2] at he'
      cases he'
    case helps => exact fun s hs t ht hh => none hs hh
    case housed =>
      intro t ht hk
      rw [hlasting t ht] at hk
      cases hk
    case known =>
      intro s hs r hr
      have hr' : .report r ∈ s.inbox := hr
      rw [(launched.idle hs).2.1] at hr'
      cases hr'
    case rooted => exact hroot
    case lasting => exact fun s hs _ => hlasting s hs
  | append_singleton ran m ih =>
    rw [Engine.follow_concat]
    exact ih.step (launched.orderly.follow ran) (fun s hs => launched.lone ran hs) m

/-! ### Whoever goes with a child -/

/-- Whoever is in a subtree is its top or directly below somebody in it. -/
theorem mem_subtree {levels : Nat} {id c : AgentId} (h : c ∈ e.subtree levels id) :
    c = id ∨ ∃ q ∈ e.slots, q.id ∈ e.subtree levels id ∧ c ∈ Engine.below q.agent := by
  induction levels generalizing id with
  | zero => cases h
  | succ levels ih =>
    unfold Engine.subtree at h ⊢
    cases hfound : e.listed? id with
    | none =>
      rw [hfound] at h
      cases h
    | some q =>
      rw [hfound] at h
      simp only at h ⊢
      obtain ⟨hq, hqid, -⟩ := Engine.mem_of_listed? hfound
      rcases List.mem_cons.mp h with rfl | h
      · exact Or.inl rfl
      · obtain ⟨child, hchild, h⟩ := List.mem_flatMap.mp h
        rcases ih h with rfl | ⟨p, hp, hin, hbelow⟩
        · exact Or.inr ⟨q, hq, hqid ▸ List.mem_cons_self, hchild⟩
        · refine Or.inr ⟨p, hp, List.mem_cons_of_mem _ ?_, hbelow⟩
          exact List.mem_flatMap.mpr ⟨child, hchild, hin⟩

/-- **A helper is let go only together with the agent on whose list it is.** -/
theorem Kinship.released_with (k : Kinship e) {p x : Slot} {child h : AgentId} {rest : List Effect}
    {retiring : Bool} (hp : p ∈ e.slots) (on : h ∈ p.agent.helpers) (hx : x ∈ e.slots)
    (phase : x.phase = .applying (.release child :: rest) retiring)
    (below : h ∈ (e.swap { x with phase := .applying rest retiring }).subtree
      e.slots.length child) :
    p.id ∈ (e.swap { x with phase := .applying rest retiring }).subtree e.slots.length child := by
  rcases mem_subtree below with rfl | ⟨q, hq, hin, hbelow⟩
  · refine absurd (Slot.mem_entries.mpr (Or.inr (Or.inr ⟨.release h, ?_, rfl⟩)))
      (k.disjoint p hp x hx h on)
    rw [phase]
    exact List.mem_cons_self
  -- a slot with the same agent as before
  · obtain ⟨u, hu, hagent⟩ : ∃ u ∈ e.slots, q.agent = u.agent := by
      have hid : ({ x with phase := .applying rest retiring } : Slot).id = x.id := rfl
      rcases mem_swap hid hq with rfl | ⟨hq, -⟩
      · exact ⟨x, hx, rfl⟩
      · exact ⟨q, hq, rfl⟩
    have hqid : q.id = u.id := congrArg Agent.id hagent
    rw [Engine.below, hagent] at hbelow
    rcases List.mem_append.mp hbelow with hchild | hhelper
    · obtain ⟨c, hc, rfl⟩ := List.mem_map.mp hchild
      exact absurd (Slot.mem_entries.mpr (Or.inl ⟨c, hc, rfl⟩)) (k.disjoint p hp u hu _ on)
    · rw [k.apart p hp u hu h on hhelper, ← hqid]
      exact hin

end Arbor
