import Arbor.Proofs.Engine.Order

/-! # What becomes of one slot

Others may write to an agent, take it off the list or be put above it. Everything else of its slot
is changed by the agent's own steps.

* `Slot.Fares`: what a move makes of one slot.
* `Orderly.fares`: every slot behind a move has fared from one before it, or is new.
* `Orderly.slots_follow`: what holds of the slots of all states of a run. -/

namespace Arbor

open Turn

namespace Slot

/-- What others do to a slot. -/
structure Keeps (s s' : Slot) : Prop where
  agent : ∃ parent, s'.agent = { s.agent with parent := parent }
  phase : s'.phase = s.phase
  inbox : ∃ more, s'.inbox = s.inbox ++ more
  listed : s'.listed = true → s.listed = true

theorem Keeps.refl (s : Slot) : s.Keeps s := ⟨⟨_, rfl⟩, rfl, ⟨[], by simp⟩, fun h => h⟩

theorem Keeps.books {s s' : Slot} (h : s.Keeps s') : s'.agent.books = s.agent.books := by
  obtain ⟨parent, ha⟩ := h.agent
  rw [ha]
  rfl

theorem Keeps.id_eq {s s' : Slot} (h : s.Keeps s') : s'.id = s.id := congrArg Books.id h.books

theorem Keeps.handedTo {s s' : Slot} (h : s.Keeps s') : s'.handedTo = s.handedTo :=
  congrArg Books.handedTo h.books

theorem Keeps.mem_inbox {s s' : Slot} (h : s.Keeps s') {envelope : Envelope}
    (he : envelope ∈ s.inbox) : envelope ∈ s'.inbox := by
  obtain ⟨more, hmore⟩ := h.inbox
  rw [hmore]
  exact List.mem_append_left _ he

/-- An agent to which nothing can be sent stays so. -/
theorem Keeps.closed {s s' : Slot} (h : s.Keeps s') (closed : s.Closed) : s'.Closed := by
  rcases closed with hlisted | hphase
  · cases hlisted' : s'.listed with
    | false => exact Or.inl hlisted'
    | true =>
      rw [h.listed hlisted'] at hlisted
      cases hlisted
  · exact Or.inr (h.phase.trans hphase)

/-- The slot of an agent that has just been added. -/
structure IsNewborn (s : Slot) : Prop where
  unused : s.agent.Unused
  phase : s.phase = .waiting
  childless : s.agent.kind.isHelper = true → s.agent.children = []

/-- **What a move makes of one slot.** -/
inductive Fares (e : Engine) (m : Move) (s s' : Slot) : Prop where
  | idle (deed : e.deed m s.id = .other) (keeps : s.Keeps s')
  | acts {mid : Slot} {errand : Errand} {n : Nat}
      (acts : Acts e s (e.deed m s.id) mid errand n) (keeps : mid.Keeps s')

theorem Fares.id_eq {e : Engine} {m : Move} {s s' : Slot} (h : s.Fares e m s') : s'.id = s.id := by
  cases h with
  | idle deed keeps => exact keeps.id_eq
  | acts acts keeps => exact keeps.id_eq.trans acts.id_eq

end Slot

variable {e e' : Engine} {m : Move} {s s' : Slot}

theorem mem_swap {mid t : Slot} (id : mid.id = s.id) (ht : t ∈ (e.swap mid).slots) :
    t = mid ∨ (t ∈ e.slots ∧ t.id ≠ s.id) := by
  obtain ⟨u, hu, rfl⟩ := List.mem_map.mp ht
  by_cases h : u.id = mid.id
  · exact Or.inl (if_pos h)
  · rw [if_neg h]
    exact Or.inr ⟨hu, id ▸ h⟩

theorem swap_ids (mid : Slot) : (e.swap mid).ids = e.ids := by
  rw [Engine.ids, Engine.swap, List.map_map]
  refine List.map_congr_left fun t _ => ?_
  simp only [Function.comp_apply]
  split
  · next h => exact h.symm
  · rfl

theorem keeps_send {id : AgentId} {envelope : Envelope} {t : Slot}
    (ht : t ∈ (e.send id envelope).slots) : ∃ u ∈ e.slots, u.Keeps t := by
  obtain ⟨u, hu, rfl⟩ := List.mem_map.mp ht
  refine ⟨u, hu, ?_⟩
  split
  · exact ⟨⟨_, rfl⟩, rfl, ⟨_, rfl⟩, fun h => h⟩
  · exact .refl u

theorem Engine.answerRun_slots (e : Engine) (r : Report) : (e.answerRun r).slots = e.slots := by
  unfold answerRun
  split
  · rfl
  · simp only
    split <;> rfl

/-- A master is put above the root. -/
theorem keeps_parent (e : Engine) (parent : Option AgentId) (t : Slot) :
    t.Keeps (if t.id = e.root then { t with agent := { t.agent with parent := parent } } else t) := by
  split
  · exact ⟨⟨_, rfl⟩, rfl, ⟨[], by simp⟩, fun h => h⟩
  · exact .refl t

/-- What the errand of a step does to the slots. -/
theorem Errand.keeps {errand : Errand} {t : Slot} (ht : t ∈ (errand.run e).slots) :
    (∃ u ∈ e.slots, u.Keeps t) ∨ errand = .add t := by
  cases errand with
  | none => exact Or.inl ⟨t, ht, .refl t⟩
  | send recipient envelope => exact Or.inl (keeps_send ht)
  | add newcomer =>
    rcases List.mem_append.mp ht with ht | ht
    · exact Or.inl ⟨t, ht, .refl t⟩
    · exact Or.inr (congrArg Errand.add (List.mem_singleton.mp ht).symm)
  | unlist ids =>
    obtain ⟨u, hu, rfl⟩ := List.mem_map.mp ht
    refine Or.inl ⟨u, hu, ?_⟩
    split
    · exact ⟨⟨_, rfl⟩, rfl, ⟨[], by simp⟩, fun h => by cases h⟩
    · exact .refl u
  | answer r =>
    rw [Errand.run, Engine.answerRun_slots] at ht
    exact Or.inl ⟨t, ht, .refl t⟩

/-- A slot behind an errand, and the envelope that it brings. -/
theorem Errand.delivers {u : Slot} (errand : Errand) (hu : u ∈ e.slots) :
    ∃ t ∈ (errand.run e).slots, u.Keeps t ∧
      ∀ envelope, errand = .send u.id envelope → envelope ∈ t.inbox := by
  cases errand with
  | none => exact ⟨u, hu, .refl u, fun _ h => by cases h⟩
  | send recipient sent =>
    by_cases hid : u.id = recipient
    · refine ⟨{ u with inbox := u.inbox ++ [sent] }, List.mem_map.mpr ⟨u, hu, if_pos hid⟩,
        ⟨⟨_, rfl⟩, rfl, ⟨_, rfl⟩, fun h => h⟩, fun envelope h => ?_⟩
      cases h
      exact List.mem_append_right _ (List.mem_singleton.mpr rfl)
    · refine ⟨u, List.mem_map.mpr ⟨u, hu, if_neg hid⟩, .refl u, fun envelope h => ?_⟩
      cases h
      exact absurd rfl hid
  | add newcomer => exact ⟨u, List.mem_append_left _ hu, .refl u, fun _ h => by cases h⟩
  | unlist ids =>
    refine ⟨_, List.mem_map_of_mem hu, ?_, fun _ h => by cases h⟩
    split
    · exact ⟨⟨_, rfl⟩, rfl, ⟨[], by simp⟩, fun h => by cases h⟩
    · exact .refl u
  | answer r =>
    refine ⟨u, ?_, .refl u, fun _ h => by cases h⟩
    rw [Errand.run, Engine.answerRun_slots]
    exact hu

/-- Where the envelopes behind an errand come from. -/
theorem Errand.inbox {errand : Errand} {t : Slot} {envelope : Envelope}
    (ht : t ∈ (errand.run e).slots) (he : envelope ∈ t.inbox) :
    (∃ u ∈ e.slots, u.id = t.id ∧ envelope ∈ u.inbox) ∨ errand = .send t.id envelope ∨
      errand = .add t := by
  cases errand with
  | none => exact Or.inl ⟨t, ht, rfl, he⟩
  | send recipient sent =>
    obtain ⟨u, hu, rfl⟩ := List.mem_map.mp ht
    by_cases hid : u.id = recipient
    · rw [if_pos hid] at he ⊢
      rcases List.mem_append.mp he with he | he
      · exact Or.inl ⟨u, hu, rfl, he⟩
      · rw [List.mem_singleton.mp he]
        exact Or.inr (Or.inl (congrArg (Errand.send · sent) hid.symm))
    · rw [if_neg hid] at he ⊢
      exact Or.inl ⟨u, hu, rfl, he⟩
  | add newcomer =>
    rcases List.mem_append.mp ht with ht | ht
    · exact Or.inl ⟨t, ht, rfl, he⟩
    · exact Or.inr (Or.inr (congrArg Errand.add (List.mem_singleton.mp ht).symm))
  | unlist ids =>
    obtain ⟨u, hu, rfl⟩ := List.mem_map.mp ht
    refine Or.inl ⟨u, hu, ?_⟩
    split
    · next h =>
      rw [if_pos h] at he
      exact ⟨rfl, he⟩
    · next h =>
      rw [if_neg h] at he
      exact ⟨rfl, he⟩
  | answer r =>
    rw [Errand.run, Engine.answerRun_slots] at ht
    exact Or.inl ⟨t, ht, rfl, he⟩

/-- A step leaves the agent's own inbox alone or takes in its first envelope. -/
theorem Acts.inbox_cases {deed : Deed} {mid : Slot} {errand : Errand} {n : Nat}
    (h : Acts e s deed mid errand n) :
    mid.inbox = s.inbox ∨ ∃ envelope rest, deed = .hear envelope ∧ s.phase = .delivering ∧
      s.inbox = envelope :: rest ∧
      mid = { s with agent := s.agent.receive envelope e.world.now, inbox := rest } := by
  cases h with
  | heard phase inbox => exact Or.inr ⟨_, _, rfl, phase, inbox, rfl⟩
  | _ => exact Or.inl rfl

/-- A step puts nothing into the agent's own inbox. -/
theorem Acts.inbox {deed : Deed} {mid : Slot} {errand : Errand} {n : Nat}
    (h : Acts e s deed mid errand n) {envelope : Envelope} (he : envelope ∈ mid.inbox) :
    envelope ∈ s.inbox := by
  rcases h.inbox_cases with hsame | ⟨first, rest, -, -, hinbox, rfl⟩
  · exact hsame ▸ he
  · rw [hinbox]
    exact List.mem_cons_of_mem _ he

/-- Agents that are added are new. -/
theorem Acts.newborn {deed : Deed} {mid t : Slot} {errand : Errand} {n : Nat}
    (h : Acts e s deed mid errand n) (add : errand = .add t) : t.IsNewborn := by
  cases h with
  | started phase =>
    cases add
    exact ⟨⟨rfl, rfl, rfl, rfl, rfl, rfl, rfl, rfl, rfl⟩, rfl, fun _ => rfl⟩
  | adopted phase =>
    cases add
    exact ⟨Agent.unused_fresh _ _ _ _ _ _, rfl, fun _ => rfl⟩
  | @reported ending rest retiring phase =>
    rcases Report.errand_cases (e.swap (s.concluded rest retiring)) (ending.report? s) with
      h | ⟨r, id, -, -, h⟩ | ⟨r, h⟩ <;> rw [h] at add <;> cases add
  | _ => cases add

theorem Change.fares (h : Change e m e') (hs' : s' ∈ e'.slots) :
    (∃ s ∈ e.slots, s.Fares e m s') ∨ e'.ids = e.ids ++ [s'.id] ∧ s'.IsNewborn := by
  cases h with
  | still slots idle number closed =>
    rw [slots] at hs'
    exact Or.inl ⟨s', hs', .idle (idle _) (.refl s')⟩
  | posted outside slots number closed source =>
    rw [slots] at hs'
    obtain ⟨s, hs, hkeeps⟩ := keeps_send hs'
    exact Or.inl ⟨s, hs, .idle (Engine.deed_eq_other (by rw [outside]; simp)) hkeeps⟩
  | crowned outside present number closed slots =>
    rw [slots] at hs'
    rcases List.mem_append.mp hs' with hs' | hs'
    · obtain ⟨s, hs, rfl⟩ := List.mem_map.mp hs'
      exact Or.inl ⟨s, hs, .idle (Engine.deed_eq_other (by rw [outside]; simp))
        (keeps_parent e _ s)⟩
    · rw [List.mem_singleton.mp hs']
      refine Or.inr ⟨?_, ⟨rfl, rfl, rfl, rfl, rfl, rfl, rfl, rfl, rfl⟩, rfl, fun h => by cases h⟩
      rw [Engine.ids, slots, List.map_append, Engine.modifyAgent, Engine.modifySlot, List.map_map]
      congr 1
      refine List.map_congr_left fun t _ => ?_
      simp only [Function.comp_apply]
      split <;> rfl
  | @acted s mem actor acted =>
    obtain @⟨mid, errand, acts, slots, runs, closed⟩ := acted
    rw [slots] at hs'
    rcases Errand.keeps hs' with ⟨u, hu, hkeeps⟩ | hadd
    · rcases mem_swap acts.id_eq hu with rfl | ⟨hu, hother⟩
      · exact Or.inl ⟨s, mem, .acts acts hkeeps⟩
      · refine Or.inl ⟨u, hu, .idle (Engine.deed_eq_other fun h => hother ?_) hkeeps⟩
        exact Option.some.inj (h.symm.trans actor)
    · refine Or.inr ⟨?_, acts.newborn hadd⟩
      rw [Engine.ids, slots, hadd, ← swap_ids mid]
      simp [Errand.run, Engine.ids]

/-- **Every slot behind a move has fared from one before it, or is new.** -/
theorem Orderly.fares (o : Orderly e) (m : Move) (hs' : s' ∈ (e.step m).slots) :
    (∃ s ∈ e.slots, s.Fares e m s') ∨ s'.id ∉ e.ids ∧ s'.IsNewborn := by
  rcases (step_change o.distinct m).fares hs' with hold | ⟨hids, hnew⟩
  · exact Or.inl hold
  · refine Or.inr ⟨?_, hnew⟩
    have hdistinct := (o.step m).distinct
    rw [hids] at hdistinct
    exact fun h => (List.nodup_append.mp hdistinct).2.2 _ h _ (List.mem_singleton.mpr rfl) rfl

/-- Whoever does something takes a step. -/
theorem Orderly.acts_of_deed (o : Orderly e) (hs : s ∈ e.slots) (busy : e.deed m s.id ≠ .other) :
    ∃ mid errand n, Acts e s (e.deed m s.id) mid errand n := by
  have actor : m.actor? = some s.id := by
    by_contra h
    exact busy (Engine.deed_eq_other h)
  rcases step_of_actor o.distinct actor with ⟨-, hdeed⟩ | ⟨t, ht, hid, hacted⟩
  · exact absurd hdeed busy
  · obtain rfl := Engine.eq_of_id_eq o.distinct hs ht hid
    obtain ⟨acts, -, -, -⟩ := hacted
    exact ⟨_, _, _, acts⟩

theorem Orderly.mem_ids_step (o : Orderly e) {id : AgentId} (h : id ∈ e.ids) :
    id ∈ (e.step m).ids := by
  obtain ⟨g, new, w⟩ := step_evolves o.distinct m
  exact w.mem_ids h

theorem Orderly.number_le_step (o : Orderly e) (m : Move) :
    e.world.nextNumber ≤ (e.step m).world.nextNumber := by
  obtain ⟨g, new, w⟩ := step_evolves o.distinct m
  exact w.number

theorem Engine.slot?_eq_none {id : AgentId} : e.slot? id = none ↔ id ∉ e.ids := by
  simp [Engine.slot?, Engine.ids]

/-- **What a move makes of the slot of an agent,** if it has one. -/
theorem Orderly.slot?_step (o : Orderly e) (m : Move) (id : AgentId) :
    (∃ s s', e.slot? id = some s ∧ (e.step m).slot? id = some s' ∧ s.Fares e m s') ∨
    (e.slot? id = none ∧ ∀ s' ∈ (e.step m).slot? id, s'.IsNewborn) := by
  cases hslot : (e.step m).slot? id with
  | none =>
    refine Or.inr ⟨?_, by simp⟩
    rw [Engine.slot?_eq_none] at hslot ⊢
    exact fun h => hslot (o.mem_ids_step h)
  | some s' =>
    obtain ⟨hs', rfl⟩ := Engine.mem_of_slot? hslot
    rcases o.fares m hs' with ⟨s, hs, hfares⟩ | ⟨hid, hnew⟩
    · refine Or.inl ⟨s, s', ?_, rfl, hfares⟩
      rw [hfares.id_eq]
      exact Engine.slot?_of_mem o.distinct hs
    · refine Or.inr ⟨Engine.slot?_eq_none.mpr hid, ?_⟩
      rintro t ⟨⟩
      exact hnew

/-! ### Runs -/

/-- **What holds of the slots of all states of a run:** what holds of the first ones, holds of
every slot that is added, and stays as a slot fares on. -/
theorem Orderly.slots_follow (o : Orderly e) {P : List Move → Slot → Prop}
    (start : ∀ s ∈ e.slots, P [] s)
    (new : ∀ ran m s, s.id ∉ (e.follow ran).ids → s.IsNewborn → P (ran ++ [m]) s)
    (step : ∀ ran m, ∀ s ∈ (e.follow ran).slots, ∀ s', s.Fares (e.follow ran) m s' →
      P ran s → P (ran ++ [m]) s') :
    ∀ moves, ∀ s ∈ (e.follow moves).slots, P moves s := by
  intro moves
  induction moves using List.reverseRecOn with
  | nil => exact start
  | append_singleton ran m ih =>
    intro s' hs'
    rw [Engine.follow_concat] at hs'
    rcases (o.follow ran).fares m hs' with ⟨s, hs, hfares⟩ | ⟨hid, hnew⟩
    · exact step ran m s hs s' hfares (ih s hs)
    · exact new ran m s' hid hnew

/-- An agent without a slot does nothing. -/
theorem Engine.deed_eq_other_of_absent {id : AgentId} (absent : id ∉ e.ids) (m : Move) :
    e.deed m id = .other := by
  unfold Engine.deed
  rw [Engine.slot?_eq_none.mpr absent]

/-- An agent that is added has done nothing before. -/
theorem Orderly.deeds_absent (o : Orderly e) {id : AgentId} {ran : List Move}
    (absent : id ∉ (e.follow ran).ids) (m : Move) :
    ∀ deed ∈ e.trace (fun e m => e.deed m id) (ran ++ [m]), deed = .other := by
  induction ran using List.reverseRecOn generalizing m with
  | nil =>
    intro deed hd
    rw [List.mem_singleton.mp hd]
    exact Engine.deed_eq_other_of_absent absent m
  | append_singleton ran n ih =>
    intro deed hd
    have hbefore : id ∉ (e.follow ran).ids := by
      intro h
      rw [Engine.follow_concat] at absent
      exact absent ((o.follow ran).mem_ids_step h)
    rw [Engine.trace_concat] at hd
    rcases List.mem_append.mp hd with hd | hd
    · exact ih hbefore n deed hd
    · rw [List.mem_singleton.mp hd]
      exact Engine.deed_eq_other_of_absent absent m

end Arbor
