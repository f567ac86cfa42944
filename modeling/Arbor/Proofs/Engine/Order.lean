import Arbor.Proofs.Engine.Steps

/-! # Who is where in an engine

Along every run each agent has one slot, numbers are never used twice, an agent that is yet to be
added is named by one effect only, a child has a slot or is yet to be added, and whoever is about to
be handed a task is on the list of those at work, unless nothing can be sent to it any more.

* `Orderly.step`: every move keeps this order. -/

namespace Arbor

open Turn

instance (children : Table ChildLink) (c : AgentId) : Decidable (HasChild children c) :=
  decidable_of_iff (∃ x ∈ children, children.get? x.1 = some x.2 ∧ x.2.id = c)
    ⟨fun ⟨x, _, h⟩ => ⟨x.1, x.2, h⟩, fun ⟨_, _, h⟩ => ⟨_, Table.mem_of_get? h.1, h⟩⟩

/-- The envelope holds a task of `p`. -/
def Envelope.isTaskOf (p : AgentId) : Envelope → Bool
  | .task sender _ => sender = some p
  | _ => false

namespace Slot

/-- The agent works on a task that `p` gave it, or is yet to receive one. -/
def WorksFor (s : Slot) (p : AgentId) : Prop :=
  (s.agent.isActive = true ∧ s.agent.origin = some p) ∨ ∃ task, Envelope.task (some p) task ∈ s.inbox

instance (s : Slot) (p : AgentId) : Decidable (s.WorksFor p) :=
  decidable_of_iff ((s.agent.isActive = true ∧ s.agent.origin = some p) ∨
    ∃ x ∈ s.inbox, x.isTaskOf p = true) <| or_congr_right <| by
    constructor
    · rintro ⟨x, hx, h⟩
      cases x with
      | task sender task =>
        obtain rfl : sender = some p := by simpa [Envelope.isTaskOf] using h
        exact ⟨task, hx⟩
      | plain text => cases h
      | report r => cases h
    · rintro ⟨task, h⟩
      exact ⟨_, h, by simp [Envelope.isTaskOf]⟩

/-- An agent is a child of this one by an entry. -/
def Heads (s : Slot) (c : AgentId) : Prop := HasChild s.agent.children c

instance (s : Slot) (c : AgentId) : Decidable (s.Heads c) :=
  inferInstanceAs (Decidable (HasChild s.agent.children c))

/-- Those who were handed work and have not reported. -/
def handedTo (s : Slot) : List AgentId := s.agent.books.handedTo

end Slot

/-! ### What a move does to a slot -/

namespace Shift

variable {e e' : Engine} {m : Move} {s s' : Slot} {c p : AgentId}

theorem id_eq (h : Shift e m e' s s') : s'.id = s.id := by
  cases h with
  | calm calm => exact congrArg Books.id calm.books
  | received move phase inbox =>
    exact (congrArg Books.id (s.agent.books_receive _ _)).trans (s.agent.books.receive_id _)
  | turned actor idle going listed inbox booked => exact booked.id_eq
  | bounced move phase gone => rfl

/-- An agent to which nothing can be sent stays so. -/
theorem closed (h : Shift e m e' s s') (hc : s.Closed) : s'.Closed := by
  cases h with
  | calm calm => exact calm.closed hc
  | received move phase inbox => exact hc
  | turned actor idle going listed inbox booked =>
    rcases hc with hc | hc
    · exact Or.inl (listed.trans hc)
    · exact absurd hc going
  | bounced move phase gone =>
    rcases hc with hc | hc
    · exact Or.inl hc
    · rw [phase] at hc
      cases hc

/-- The agents yet to be added: each once, and those that are new to the list have new numbers. -/
theorem newcomers (h : Shift e m e' s s') (hs : s.newcomers.Nodup) :
    s'.newcomers.Nodup ∧ ∀ c ∈ s'.newcomers, c ∈ s.newcomers ∨
      (e.world.nextNumber ≤ c.number ∧ c.number < e'.world.nextNumber ∧
        m.actor? = some s.id) := by
  cases h with
  | calm calm =>
    obtain ⟨done, hd, -⟩ := calm.pending
    have hsplit : s.newcomers = done.filterMap Effect.newcomer? ++ s'.newcomers := by
      rw [Slot.newcomers, hd, List.filterMap_append]
      rfl
    rw [hsplit] at hs ⊢
    exact ⟨hs.of_append_right, fun c hc => Or.inl (List.mem_append_right _ hc)⟩
  | received move phase inbox => exact ⟨hs, fun c hc => Or.inl hc⟩
  | turned actor idle going listed inbox booked =>
    obtain ⟨hnodup, hnew⟩ := booked.newcomers
    exact ⟨hnodup, fun c hc => Or.inr ⟨(hnew c hc).1, (hnew c hc).2, actor⟩⟩
  | @bounced child task rest retiring move phase gone =>
    have hsame : s.newcomers = rest.filterMap Effect.newcomer? := by
      rw [Slot.newcomers, phase]
      rfl
    rw [hsame] at hs ⊢
    exact ⟨hs, fun c hc => Or.inl hc⟩

/-- An agent stays on the list of those to be added until it has a slot. -/
theorem newcomer_kept (h : Shift e m e' s s') (hc : c ∈ s.newcomers) :
    c ∈ s'.newcomers ∨ c ∈ e'.ids := by
  cases h with
  | calm calm =>
    obtain ⟨done, hd, hthere⟩ := calm.pending
    rw [Slot.newcomers, hd, List.filterMap_append] at hc
    rcases List.mem_append.mp hc with hc | hc
    · obtain ⟨effect, he, hn⟩ := List.mem_filterMap.mp hc
      exact Or.inr (hthere effect he c hn)
    · exact Or.inl hc
  | received move phase inbox => exact Or.inl hc
  | turned actor idle going listed inbox booked =>
    rw [Slot.newcomers, idle] at hc
    cases hc
  | bounced move phase gone =>
    rw [Slot.newcomers, phase] at hc
    exact Or.inl hc

/-- A new child is yet to be added. -/
theorem heads (h : Shift e m e' s s') (hc : s'.Heads c) : s.Heads c ∨ c ∈ s'.newcomers := by
  cases h with
  | calm calm =>
    have hchildren : s'.agent.children = s.agent.children := congrArg Books.children calm.books
    rw [Slot.Heads, hchildren] at hc
    exact Or.inl hc
  | @received envelope rest move phase inbox =>
    rw [Slot.Heads, s.agent.receive_children] at hc
    exact Or.inl hc
  | turned actor idle going listed inbox booked => exact booked.children hc
  | bounced move phase gone => exact Or.inl hc

/-- Work for another agent was there before, or is just being handed over. -/
theorem worksFor (h : Shift e m e' s s') (hw : s'.WorksFor p) :
    s.WorksFor p ∨ ∃ task, Sends e p s.id task ∧ ¬ s.Closed := by
  cases h with
  | calm calm =>
    have htask : s'.agent.task = s.agent.task := congrArg Books.task calm.books
    have horigin : s'.agent.origin = s.agent.origin := congrArg Books.origin calm.books
    obtain ⟨more, hmore, hsends⟩ := calm.inbox
    rcases hw with ⟨ha, ho⟩ | ⟨task, ht⟩
    · rw [Agent.isActive, htask] at ha
      exact Or.inl (Or.inl ⟨ha, horigin ▸ ho⟩)
    · rw [hmore] at ht
      rcases List.mem_append.mp ht with ht | ht
      · exact Or.inl (Or.inr ⟨task, ht⟩)
      · exact Or.inr ⟨task, hsends p task ht⟩
  | @received envelope rest move phase inbox =>
    have hbooks := s.agent.books_receive envelope e.world.now
    rcases hw with ⟨ha, ho⟩ | ⟨task, ht⟩
    · have ho' : (s.agent.books.receive envelope).origin = some p := by
        rw [← hbooks]
        exact ho
      rcases s.agent.books.receive_task envelope with ⟨htask, horigin⟩ | ⟨-, task, henv⟩
      · have ha' : (s.agent.books.receive envelope).task.isSome = true := by
          rw [← hbooks]
          exact ha
        rw [htask] at ha'
        rw [horigin] at ho'
        exact Or.inl (Or.inl ⟨ha', ho'⟩)
      · -- the task that is taken up was at the head of the inbox
        rw [ho'] at henv
        exact Or.inl (Or.inr ⟨task, by rw [inbox, henv]; exact List.mem_cons_self⟩)
    · exact Or.inl (Or.inr ⟨task, by rw [inbox]; exact List.mem_cons_of_mem _ ht⟩)
  | turned actor idle going listed inbox booked =>
    rcases hw with ⟨ha, ho⟩ | ⟨task, ht⟩
    · rcases booked.task with ⟨htask, horigin⟩ | hnone
      · have ha' : s.agent.books.task.isSome = true := htask ▸ ha
        have ho' : s.agent.books.origin = some p := horigin ▸ ho
        exact Or.inl (Or.inl ⟨ha', ho'⟩)
      · have ha' : s'.agent.books.task.isSome = true := ha
        rw [hnone] at ha'
        cases ha'
    · exact Or.inl (Or.inr ⟨task, inbox ▸ ht⟩)
  | bounced move phase gone => exact Or.inl hw

/-- A helper that is yet to be started is no child. -/
theorem helpers {kind : Directive.HelperKind} {prompt : String} {scratch : Scratch}
    (h : Shift e m e' s s')
    (before : .spawn c kind prompt scratch ∈ s.phase.pending → ¬ s.Heads c)
    (old : s.Heads c → c.number < e.world.nextNumber)
    (hm : .spawn c kind prompt scratch ∈ s'.phase.pending) : ¬ s'.Heads c := by
  cases h with
  | calm calm =>
    have hchildren : s'.agent.children = s.agent.children := congrArg Books.children calm.books
    obtain ⟨done, hd, -⟩ := calm.pending
    rw [Slot.Heads, hchildren]
    exact before (by rw [hd]; exact List.mem_append_right _ hm)
  | received move phase inbox =>
    rw [phase] at hm
    cases hm
  | turned actor idle going listed inbox booked =>
    obtain ⟨hnew, hchildren⟩ := booked.spawn hm
    intro hc
    have hc' : s.Heads c := by
      rw [Slot.Heads, ← show s'.agent.children = s.agent.children from hchildren]
      exact hc
    exact absurd (old hc') (Nat.not_lt.mpr hnew)
  | bounced move phase gone =>
    refine before ?_
    rw [phase]
    exact List.mem_cons_of_mem _ hm

/-- Whoever is about to be handed a task has a slot. It is on the list of those at work, or
nothing can be sent to it. -/
theorem handing {task : Task} (h : Shift e m e' s s') (distinct : e.ids.Nodup)
    (present : ∀ c, s.Heads c → c ∈ e.ids ∨ c ∈ s.newcomers)
    (before : ∀ c task, .delegate c task ∈ s.phase.pending →
      c ∈ e.ids ∧ (c ∈ s.handedTo ∨ ∀ t ∈ e.slots, t.id = c → t.Closed))
    (hm : .delegate c task ∈ s'.phase.pending) :
    c ∈ e.ids ∧ (c ∈ s'.handedTo ∨ ∀ t ∈ e.slots, t.id = c → t.Closed) := by
  cases h with
  | calm calm =>
    obtain ⟨done, hd, -⟩ := calm.pending
    rw [Slot.handedTo, calm.books]
    exact before c task (by rw [hd]; exact List.mem_append_right _ hm)
  | received move phase inbox =>
    rw [phase] at hm
    cases hm
  | turned actor idle going listed inbox booked =>
    obtain ⟨hchild, hlist⟩ := booked.delegate hm
    refine ⟨(present c hchild).resolve_right ?_, Or.inl hlist⟩
    rw [Slot.newcomers, idle]
    exact List.not_mem_nil
  | @bounced child first rest retiring move phase gone =>
    have hrest : .delegate c task ∈ s.phase.pending := by
      rw [phase]
      exact List.mem_cons_of_mem _ hm
    obtain ⟨hid, hlist⟩ := before c task hrest
    refine ⟨hid, ?_⟩
    by_cases hcc : c = child
    · subst hcc
      refine Or.inr fun t ht hid => Engine.closed_of_not_accepts ht distinct ?_
      rw [hid]
      exact gone
    · refine hlist.imp_left fun hc => ?_
      exact (Books.mem_handedTo_dismiss (b := s.agent.books)).mpr ⟨hc, hcc⟩

end Shift

/-! ### The order -/

/-- **The order of an engine.** -/
structure Orderly (e : Engine) : Prop where
  /-- Each agent has one slot. -/
  distinct : e.ids.Nodup
  /-- Agents have numbers that were given out. -/
  numbered : ∀ s ∈ e.slots, s.id.number < e.world.nextNumber
  /-- So have those who gave a task. -/
  employers : ∀ s ∈ e.slots, ∀ p, s.WorksFor p → p.number < e.world.nextNumber
  /-- So have the agents yet to be added. -/
  promised : ∀ s ∈ e.slots, ∀ c ∈ s.newcomers, c.number < e.world.nextNumber
  /-- No agent is to be added twice. -/
  single : ∀ s ∈ e.slots, s.newcomers.Nodup
  apart : ∀ s ∈ e.slots, ∀ t ∈ e.slots, ∀ c ∈ s.newcomers, c ∈ t.newcomers → s.id = t.id
  /-- An agent yet to be added has no slot. -/
  absent : ∀ s ∈ e.slots, ∀ c ∈ s.newcomers, c ∉ e.ids
  /-- A helper yet to be started is no child. -/
  helpers : ∀ s ∈ e.slots, ∀ c kind prompt scratch,
    .spawn c kind prompt scratch ∈ s.phase.pending → ¬ s.Heads c
  /-- A child has a slot or is yet to be added. -/
  present : ∀ s ∈ e.slots, ∀ c, s.Heads c → c ∈ e.ids ∨ c ∈ s.newcomers
  /-- Whoever is about to be handed a task is on the list, or nothing can be sent to it. -/
  handing : ∀ s ∈ e.slots, ∀ c task, .delegate c task ∈ s.phase.pending →
    c ∈ e.ids ∧ (c ∈ s.handedTo ∨ ∀ t ∈ e.slots, t.id = c → t.Closed)

namespace Orderly

variable {e e' : Engine} {m : Move}

/-- Children have numbers that were given out. -/
theorem heads_lt (o : Orderly e) {s : Slot} (hs : s ∈ e.slots) {c : AgentId} (hc : s.Heads c) :
    c.number < e.world.nextNumber := by
  rcases o.present s hs c hc with hc | hc
  · obtain ⟨t, ht, rfl⟩ := List.mem_map.mp hc
    exact o.numbered t ht
  · exact o.promised s hs c hc

end Orderly

namespace Evolution

variable {e e' : Engine} {m : Move} {g : Slot → Slot} {new : List Slot}

theorem ids_eq (w : Evolution e m e' g new) : e'.ids = e.ids ++ new.map Slot.id := by
  rw [Engine.ids, w.slots, List.map_append, List.map_map]
  congr 1
  exact List.map_congr_left fun s hs => (w.shift s hs).id_eq

theorem mem_ids (w : Evolution e m e' g new) {c : AgentId} (h : c ∈ e.ids) : c ∈ e'.ids := by
  rw [w.ids_eq]
  exact List.mem_append_left _ h

/-- A slot was there before or is new. -/
theorem mem_cases (w : Evolution e m e' g new) {t : Slot} (ht : t ∈ e'.slots) :
    (∃ s ∈ e.slots, t = g s) ∨ t ∈ new := by
  rw [w.slots] at ht
  rcases List.mem_append.mp ht with ht | ht
  · obtain ⟨s, hs, rfl⟩ := List.mem_map.mp ht
    exact Or.inl ⟨s, hs, rfl⟩
  · exact Or.inr ht

/-- A new slot has no effects left. -/
theorem pending_new (w : Evolution e m e' g new) {t : Slot} (ht : t ∈ new) :
    t.phase.pending = [] := by
  cases (w.join t ht).2 with
  | started mem pending newcomer after idle childless free inbox => rw [idle]; rfl
  | crowned number taken still idle children free inbox => rw [idle]; rfl

/-- The newcomers of a slot are those from before, or have new numbers and come of a turn. -/
theorem newcomer_cases (w : Evolution e m e' g new) (o : Orderly e) {s : Slot} (hs : s ∈ e.slots)
    {c : AgentId} (hc : c ∈ (g s).newcomers) :
    c ∈ s.newcomers ∨ (e.world.nextNumber ≤ c.number ∧ c.number < e'.world.nextNumber ∧
      m.actor? = some s.id) :=
  ((w.shift s hs).newcomers (o.single s hs)).2 c hc

/-- The agent that is added was yet to be added, or has a new number. -/
theorem new_cases (w : Evolution e m e' g new) {t : Slot} (ht : t ∈ new) :
    (∃ s ∈ e.slots, t.id ∈ s.newcomers) ∨
      (t.id.number = e.world.nextNumber ∧ e.world.nextNumber < e'.world.nextNumber) := by
  cases (w.join t ht).2 with
  | @started s effect rest mem pending newcomer after idle childless free inbox =>
    refine Or.inl ⟨s, mem, ?_⟩
    rw [Slot.newcomers, pending, List.filterMap_cons_some newcomer]
    exact List.mem_cons_self
  | crowned number taken still idle children free inbox =>
    exact Or.inr ⟨congrArg AgentId.number number, taken⟩

theorem new_lt (w : Evolution e m e' g new) (o : Orderly e) {t : Slot} (ht : t ∈ new) :
    t.id.number < e'.world.nextNumber := by
  rcases w.new_cases ht with ⟨s, hs, hc⟩ | ⟨hid, hlt⟩
  · exact Nat.lt_of_lt_of_le (o.promised s hs _ hc) w.number
  · exact hid ▸ hlt

theorem new_not_mem_ids (w : Evolution e m e' g new) (o : Orderly e) {t : Slot} (ht : t ∈ new) :
    t.id ∉ e.ids := by
  rcases w.new_cases ht with ⟨s, hs, hc⟩ | ⟨hid, -⟩
  · exact o.absent s hs _ hc
  · intro h
    obtain ⟨s, hs, hsid⟩ := List.mem_map.mp h
    have hlt := o.numbered s hs
    rw [hsid, hid] at hlt
    exact Nat.lt_irrefl _ hlt

/-- The agent that is added is not to be added again. -/
theorem new_not_mem_newcomers (w : Evolution e m e' g new) (o : Orderly e) {t s : Slot}
    (ht : t ∈ new) (hs : s ∈ e.slots) : t.id ∉ (g s).newcomers := by
  intro hc
  cases (w.join t ht).2 with
  | @started s' effect rest mem pending newcomer after idle childless free inbox =>
    have hnewcomers : s'.newcomers = t.id :: rest.filterMap Effect.newcomer? := by
      rw [Slot.newcomers, pending, List.filterMap_cons_some newcomer]
    have hhead : t.id ∈ s'.newcomers := by
      rw [hnewcomers]
      exact List.mem_cons_self
    rcases w.newcomer_cases o hs hc with hold | hnew
    · obtain rfl := Engine.eq_of_id_eq o.distinct mem hs (o.apart s hs s' mem _ hold hhead)
      have hnodup := o.single s mem
      rw [hnewcomers] at hnodup
      rw [Slot.newcomers, after] at hc
      exact (List.nodup_cons.mp hnodup).1 hc
    · exact absurd (o.promised s' mem _ hhead) (Nat.not_lt.mpr hnew.1)
  | crowned number taken still idle children free inbox =>
    rw [Slot.newcomers, still s hs] at hc
    have hlt := o.promised s hs _ hc
    rw [number] at hlt
    exact Nat.lt_irrefl _ hlt

/-! ### Every move keeps the order -/

theorem keeps_distinct (w : Evolution e m e' g new) (o : Orderly e) : e'.ids.Nodup := by
  rw [w.ids_eq]
  cases new with
  | nil => simpa using o.distinct
  | cons t rest =>
    rw [(w.join t List.mem_cons_self).1, List.map_singleton, List.nodup_append]
    refine ⟨o.distinct, List.nodup_singleton _, ?_⟩
    rintro c hc d hd rfl
    rw [List.mem_singleton.mp hd] at hc
    exact w.new_not_mem_ids o List.mem_cons_self hc

theorem keeps_numbered (w : Evolution e m e' g new) (o : Orderly e) :
    ∀ t ∈ e'.slots, t.id.number < e'.world.nextNumber := by
  intro t ht
  rcases w.mem_cases ht with ⟨s, hs, rfl⟩ | ht
  · rw [(w.shift s hs).id_eq]
    exact Nat.lt_of_lt_of_le (o.numbered s hs) w.number
  · exact w.new_lt o ht

theorem keeps_employers (w : Evolution e m e' g new) (o : Orderly e) :
    ∀ t ∈ e'.slots, ∀ p, t.WorksFor p → p.number < e'.world.nextNumber := by
  intro t ht p hw
  refine Nat.lt_of_lt_of_le ?_ w.number
  rcases w.mem_cases ht with ⟨s, hs, rfl⟩ | ht
  · rcases (w.shift s hs).worksFor hw with hw | ⟨task, ⟨q, hq, rfl, -⟩, -⟩
    · exact o.employers s hs p hw
    · exact o.numbered q hq
  · cases (w.join t ht).2 with
    | started mem pending newcomer after idle childless free inbox =>
      rcases hw with ⟨ha, -⟩ | ⟨task, hm⟩
      · rw [Agent.isActive, free] at ha
        cases ha
      · rw [(inbox p task hm).1]
        exact o.numbered _ mem
    | crowned number taken still idle children free inbox =>
      rcases hw with ⟨ha, -⟩ | ⟨task, hm⟩
      · rw [Agent.isActive, free] at ha
        cases ha
      · rw [inbox] at hm
        cases hm

theorem keeps_promised (w : Evolution e m e' g new) (o : Orderly e) :
    ∀ t ∈ e'.slots, ∀ c ∈ t.newcomers, c.number < e'.world.nextNumber := by
  intro t ht c hc
  rcases w.mem_cases ht with ⟨s, hs, rfl⟩ | ht
  · rcases w.newcomer_cases o hs hc with hc | hc
    · exact Nat.lt_of_lt_of_le (o.promised s hs c hc) w.number
    · exact hc.2.1
  · rw [Slot.newcomers, w.pending_new ht] at hc
    cases hc

theorem keeps_single (w : Evolution e m e' g new) (o : Orderly e) :
    ∀ t ∈ e'.slots, t.newcomers.Nodup := by
  intro t ht
  rcases w.mem_cases ht with ⟨s, hs, rfl⟩ | ht
  · exact ((w.shift s hs).newcomers (o.single s hs)).1
  · rw [Slot.newcomers, w.pending_new ht]
    exact List.nodup_nil

theorem keeps_apart (w : Evolution e m e' g new) (o : Orderly e) :
    ∀ s ∈ e'.slots, ∀ t ∈ e'.slots, ∀ c ∈ s.newcomers, c ∈ t.newcomers → s.id = t.id := by
  intro u hu v hv c hcu hcv
  rcases w.mem_cases hu with ⟨s, hs, rfl⟩ | hu
  · rcases w.mem_cases hv with ⟨t, ht, rfl⟩ | hv
    · rw [(w.shift s hs).id_eq, (w.shift t ht).id_eq]
      rcases w.newcomer_cases o hs hcu with hcs | ⟨hlt, -, hcs⟩ <;>
        rcases w.newcomer_cases o ht hcv with hct | ⟨hlt', -, hct⟩
      · exact o.apart s hs t ht c hcs hct
      · exact absurd (o.promised s hs c hcs) (Nat.not_lt.mpr hlt')
      · exact absurd (o.promised t ht c hct) (Nat.not_lt.mpr hlt)
      · exact Option.some.inj (hcs.symm.trans hct)
    · rw [Slot.newcomers, w.pending_new hv] at hcv
      cases hcv
  · rw [Slot.newcomers, w.pending_new hu] at hcu
    cases hcu

theorem keeps_absent (w : Evolution e m e' g new) (o : Orderly e) :
    ∀ t ∈ e'.slots, ∀ c ∈ t.newcomers, c ∉ e'.ids := by
  intro t ht c hc hid
  rcases w.mem_cases ht with ⟨s, hs, rfl⟩ | ht
  · rw [w.ids_eq] at hid
    rcases List.mem_append.mp hid with hid | hid
    · rcases w.newcomer_cases o hs hc with hc | hc
      · exact o.absent s hs c hc hid
      · obtain ⟨u, hu, rfl⟩ := List.mem_map.mp hid
        exact absurd (o.numbered u hu) (Nat.not_lt.mpr hc.1)
    · obtain ⟨u, hu, rfl⟩ := List.mem_map.mp hid
      exact w.new_not_mem_newcomers o hu hs hc
  · rw [Slot.newcomers, w.pending_new ht] at hc
    cases hc

theorem keeps_helpers (w : Evolution e m e' g new) (o : Orderly e) :
    ∀ t ∈ e'.slots, ∀ c kind prompt scratch,
      .spawn c kind prompt scratch ∈ t.phase.pending → ¬ t.Heads c := by
  intro t ht c kind prompt scratch hm
  rcases w.mem_cases ht with ⟨s, hs, rfl⟩ | ht
  · exact (w.shift s hs).helpers (o.helpers s hs c kind prompt scratch) (o.heads_lt hs) hm
  · rw [w.pending_new ht] at hm
    cases hm

theorem keeps_present (w : Evolution e m e' g new) (o : Orderly e) :
    ∀ t ∈ e'.slots, ∀ c, t.Heads c → c ∈ e'.ids ∨ c ∈ t.newcomers := by
  intro t ht c hc
  rcases w.mem_cases ht with ⟨s, hs, rfl⟩ | ht
  · rcases (w.shift s hs).heads hc with hc | hc
    · rcases o.present s hs c hc with hc | hc
      · exact Or.inl (w.mem_ids hc)
      · exact ((w.shift s hs).newcomer_kept hc).symm
    · exact Or.inr hc
  · cases (w.join t ht).2 with
    | started mem pending newcomer after idle childless free inbox =>
      obtain ⟨entry, link, hget, -⟩ := hc
      rw [childless] at hget
      cases hget
    | crowned number taken still idle children free inbox => exact Or.inl (w.mem_ids (children c hc))

theorem keeps_handing (w : Evolution e m e' g new) (o : Orderly e) :
    ∀ t ∈ e'.slots, ∀ c task, .delegate c task ∈ t.phase.pending →
      c ∈ e'.ids ∧ (c ∈ t.handedTo ∨ ∀ u ∈ e'.slots, u.id = c → u.Closed) := by
  intro t ht c task hm
  rcases w.mem_cases ht with ⟨s, hs, rfl⟩ | ht
  · obtain ⟨hid, hlist⟩ := (w.shift s hs).handing o.distinct (o.present s hs) (o.handing s hs) hm
    refine ⟨w.mem_ids hid, hlist.imp_right fun hclosed u hu huid => ?_⟩
    rcases w.mem_cases hu with ⟨v, hv, rfl⟩ | hu
    · exact (w.shift v hv).closed (hclosed v hv ((w.shift v hv).id_eq.symm.trans huid))
    · exact absurd (huid ▸ hid) (w.new_not_mem_ids o hu)
  · rw [w.pending_new ht] at hm
    cases hm

end Evolution

/-- **Every move keeps the order.** -/
theorem Orderly.step {e : Engine} (o : Orderly e) (m : Move) : Orderly (e.step m) := by
  obtain ⟨g, new, w⟩ := step_evolves o.distinct m
  exact ⟨w.keeps_distinct o, w.keeps_numbered o, w.keeps_employers o, w.keeps_promised o,
    w.keeps_single o, w.keeps_apart o, w.keeps_absent o, w.keeps_helpers o, w.keeps_present o,
    w.keeps_handing o⟩

/-! ### Runs -/

variable {e : Engine}

theorem Engine.follow_concat (e : Engine) (ran : List Move) (m : Move) :
    e.follow (ran ++ [m]) = (e.follow ran).step m := by
  simp [Engine.follow]

theorem Engine.follow_append (e : Engine) (before since : List Move) :
    e.follow (before ++ since) = (e.follow before).follow since := List.foldl_append

/-- What can be said of each move of a run, in order. -/
def Engine.trace {α : Type} (f : Engine → Move → α) (e : Engine) : List Move → List α
  | [] => []
  | m :: rest => f e m :: (e.step m).trace f rest

theorem Engine.trace_concat {α : Type} (f : Engine → Move → α) (e : Engine) (ran : List Move)
    (m : Move) : e.trace f (ran ++ [m]) = e.trace f ran ++ [f (e.follow ran) m] := by
  induction ran generalizing e with
  | nil => rfl
  | cons n rest ih => exact congrArg (f e n :: ·) (ih (e.step n))

/-- **Every run keeps the order.** -/
theorem Orderly.follow (o : Orderly e) (moves : List Move) : Orderly (e.follow moves) := by
  induction moves generalizing e with
  | nil => exact o
  | cons m rest ih => exact ih (o.step m)

/-- The project stays the same. -/
theorem Orderly.project_follow (o : Orderly e) (moves : List Move) :
    (e.follow moves).project = e.project := by
  induction moves using List.reverseRecOn with
  | nil => rfl
  | append_singleton ran m ih =>
    rw [Engine.follow_concat]
    exact (step_frame (o.follow ran).distinct m).1.trans ih

end Arbor
