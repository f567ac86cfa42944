import Arbor.Proofs.Engine.Changes

/-! # Every move does what a move can do

What a move makes of all slots is gone through case by case: phases, turns, effects, and what comes
from outside.

* `Acted.evolves`: the steps of an agent.
* `step_evolves`: any move, where identities are distinct. -/

namespace Arbor

open Turn

variable {e e' : Engine} {m : Move} {s : Slot}

theorem ne_stopped_of_pending {phase : Phase} {effect : Effect} {rest : List Effect}
    (h : phase.pending = effect :: rest) : phase ≠ .stopped := by
  rintro rfl
  cases h

/-! ### Phases -/

/-- Going on to another phase leaves the effects as they are. -/
theorem Passes.pending {phase : Phase} (h : Passes e s phase) :
    phase.pending = s.phase.pending := by
  cases h with
  | leaves phase => rw [phase]; rfl
  | resumes phase => rw [phase]; rfl
  | refreshes phase => rw [phase]; rfl
  | _ => simp [*, Phase.pending]

theorem Passes.going {phase : Phase} (h : Passes e s phase) : s.phase ≠ .stopped := by
  cases h <;> simp [*]

theorem Slot.AtTurn.going (h : s.AtTurn) : s.phase ≠ .stopped := by
  rcases h with h | ⟨call, prompt, deadline, h⟩ <;> simp [h]

theorem Slot.AtTurn.idle (h : s.AtTurn) : s.phase.pending = [] := by
  rcases h with h | ⟨call, prompt, deadline, h⟩ <;> simp [h, Phase.pending]

/-- A slot drifts alone. -/
theorem Drift.swap {s' : Slot} (distinct : e.ids.Nodup) (hs : s ∈ e.slots) (h : Drifts s s')
    (slots : e'.slots = (e.swap s').slots)
    (number : e.world.nextNumber ≤ e'.world.nextNumber) : Drift e e' := by
  refine ⟨number, fun t => if t.id = s.id then s' else t, ?_, fun t ht => ?_⟩
  · rw [slots, Engine.swap, h.id_eq]
  · by_cases hid : t.id = s.id
    · obtain rfl := Engine.eq_of_id_eq distinct hs ht hid
      simpa using h
    · simp only [if_neg hid]
      exact .refl t

/-- A move that changes one slot. -/
theorem evolves_swap {s' : Slot} (distinct : e.ids.Nodup) (hs : s ∈ e.slots)
    (slots : e'.slots = (e.swap s').slots)
    (number : e.world.nextNumber ≤ e'.world.nextNumber) (h : Shift e m e' s s')
    (id : s'.id = s.id) : Evolves e m e' := by
  refine ⟨fun t => if t.id = s.id then s' else t, [], number, by simp [slots, Engine.swap, id],
    fun t ht => ?_, by simp⟩
  by_cases hid : t.id = s.id
  · obtain rfl := Engine.eq_of_id_eq distinct hs ht hid
    simpa using h
  · simp only [if_neg hid]
    exact .calm (Drifts.refl t).calm

/-! ### Turns -/

/-- Giving up a task, or keeping it because others work for the agent. -/
theorem GivesUp.shift {a a' : Agent} {phase : Phase} (h : GivesUp a a' phase)
    (actor : m.actor? = some s.id) (books : a.books = s.agent.books) (turn : s.AtTurn)
    (number : e'.world.nextNumber = e.world.nextNumber) :
    Shift e m e' s { s with agent := a', phase := phase } := by
  cases h with
  | stuck busy => exact .calm (drifts_phase .waiting a books turn.going turn.idle.symm).calm
  | ended idle payload =>
    have hretire : ({ a.retire with scratch := none } : Agent).books = s.agent.books.retire := by
      rw [← books]
      rfl
    refine .turned actor turn.idle turn.going rfl rfl ?_
    simp only [hretire, number]
    refine .retired ?_ (congrArg Books.task books) (congrArg Books.origin books)
    rw [← books]
    exact busy?_eq_none idle

/-! ### Effects -/

/-- The child that is handed work finds it in its inbox. -/
theorem evolves_handed {child : AgentId} {task : Task} {rest : List Effect} {retiring : Bool}
    (distinct : e.ids.Nodup) (hs : s ∈ e.slots)
    (pending : s.phase.pending = .delegate child task :: rest) (accepts : e.accepts child = true)
    (slots : e'.slots = ((e.swap { s with phase := .applying rest retiring }).send child
      (.task (some s.id) task)).slots)
    (number : e'.world.nextNumber = e.world.nextNumber) : Evolves e m e' := by
  refine ⟨(fun u => if u.id = child then
      { u with inbox := u.inbox ++ [.task (some s.id) task] } else u) ∘
        fun t => if t.id = s.id then { s with phase := .applying rest retiring } else t, [],
    Nat.le_of_eq number.symm, ?_, ?_, by simp⟩
  · rw [slots, List.append_nil, ← List.map_map]
    rfl
  intro t ht
  have hd : Drifts t (if t.id = s.id then { s with phase := .applying rest retiring } else t) := by
    by_cases hid : t.id = s.id
    · obtain rfl := Engine.eq_of_id_eq distinct hs ht hid
      rw [if_pos rfl]
      exact drifts_applied retiring pending rfl
    · rw [if_neg hid]
      exact .refl t
  simp only [Function.comp_apply]
  generalize (if t.id = s.id then { s with phase := .applying rest retiring } else t) = u at hd ⊢
  refine .calm ?_
  have hcalm : Calm e e' t u := hd.calm
  by_cases hid : u.id = child
  · rw [if_pos hid]
    have htc : t.id = child := hd.id_eq.symm.trans hid
    obtain ⟨more, hmore, hfree⟩ := hd.inbox
    refine ⟨hcalm.books, hcalm.closed, hcalm.pending, more ++ [.task (some s.id) task],
      by simp [hmore], ?_⟩
    intro p task' hm
    rcases List.mem_append.mp hm with hm | hm
    · exact absurd hm (hfree p task')
    · cases List.mem_singleton.mp hm
      rw [← htc] at accepts
      rw [htc]
      exact ⟨⟨s, hs, rfl, rest, pending⟩, Engine.not_closed_of_accepts distinct ht accepts⟩
  · rw [if_neg hid]
    exact hcalm

/-- An agent is added by an effect that is struck off. -/
theorem evolves_added {effect : Effect} {rest : List Effect} {retiring : Bool}
    {a : Agent} {systemRole : Bool} {inbox : List Envelope} (distinct : e.ids.Nodup)
    (hs : s ∈ e.slots) (pending : s.phase.pending = effect :: rest)
    (newcomer : effect.newcomer? = some a.id)
    (slots : e'.slots = (e.swap { s with phase := .applying rest retiring }).slots ++
      [.newborn a systemRole inbox])
    (number : e.world.nextNumber ≤ e'.world.nextNumber) (childless : a.children = [])
    (free : a.task = none)
    (work : ∀ p task, Envelope.task (some p) task ∈ inbox →
      p = s.id ∧ ∃ kind prompt scratch, effect = .spawn a.id kind prompt scratch) :
    Evolves e m e' := by
  have hhere : a.id ∈ e'.ids := by
    simp [Engine.ids, slots, Slot.newborn, Slot.id]
  refine ⟨fun t => if t.id = s.id then { s with phase := .applying rest retiring } else t,
    [.newborn a systemRole inbox], number, slots, ?_, ?_⟩
  · intro t ht
    by_cases hid : t.id = s.id
    · obtain rfl := Engine.eq_of_id_eq distinct hs ht hid
      simp only [if_true]
      refine .calm ⟨rfl, fun hc => ?_, ⟨[effect], pending, ?_⟩, ⟨[], by simp, by simp⟩⟩
      · rcases hc with hc | hc
        · exact Or.inl hc
        · exact absurd hc (ne_stopped_of_pending pending)
      · intro x hx c hc
        rw [List.mem_singleton.mp hx, newcomer] at hc
        cases hc
        exact hhere
    · simp only [if_neg hid]
      exact .calm (Drifts.refl t).calm
  · intro t ht
    obtain rfl := List.mem_singleton.mp ht
    refine ⟨rfl, .started hs pending newcomer ?_ rfl childless free work⟩
    simp [Phase.pending]

/-- A report concerns no books. -/
theorem Drift.errand (e : Engine) (r : Option Report) :
    Drift e ((r.elim .none (Report.errand e)).run e) := by
  rcases Report.errand_cases e r with h | ⟨r, id, -, -, h⟩ | ⟨r, h⟩
  · rw [h]
    exact .refl e
  · rw [h]
    exact .send e id fun _ _ h => by cases h
  · rw [h]
    exact .answerRun e r

/-- An agent that has reported leaves the list if it is a helper. -/
theorem drifts_concluded {ending : Ending} {rest : List Effect} (retiring : Bool)
    (pending : s.phase.pending = .finish ending :: rest) :
    Drifts s (s.concluded rest retiring) := by
  refine ⟨rfl, fun hc => ?_, ⟨[.finish ending], pending, by simp [Effect.newcomer?]⟩,
    ⟨[], by simp [Slot.concluded], by simp⟩⟩
  rcases hc with hc | hc
  · exact Or.inl (by simp [Slot.concluded, hc])
  · exact absurd hc (ne_stopped_of_pending pending)

/-! ### Any move -/

/-- Numbers are only taken. -/
theorem Acts.number_le {deed : Deed} {s' : Slot} {errand : Errand} {n : Nat}
    (h : Acts e s deed s' errand n) : e.world.nextNumber ≤ n := by
  cases h with
  | @completed call prompt response deadline done phase complete =>
    exact (booked_of_completed complete).number_le
  | started phase => exact Nat.le_succ _
  | _ => exact Nat.le_refl _

theorem Slot.response_ne (s : Slot) (reply : Except Model.Error String) :
    (∀ envelope, s.response reply ≠ .hear envelope) ∧ ∀ child, s.response reply ≠ .miss child := by
  unfold Slot.response
  cases s.phase with
  | calling call prompt deadline => cases Engine.outcome reply <;> simp
  | _ => simp

/-- Only its own step has an agent take in an envelope, or hear that a child is gone. -/
theorem Engine.advance_of_deed {id : AgentId} (actor : m.actor? = some id)
    (h : (∃ envelope, e.deed m id = .hear envelope) ∨ ∃ child, e.deed m id = .miss child) :
    m = .advance id := by
  cases m with
  | advance actor' => exact congrArg Move.advance (Option.some.inj actor)
  | answer actor' reply =>
    obtain rfl := Option.some.inj actor
    cases hslot : e.slot? actor' with
    | none => simp [Engine.deed, hslot] at h
    | some s =>
      obtain ⟨hhear, hmiss⟩ := s.response_ne reply
      simp only [Engine.deed, hslot, if_true] at h
      rcases h with ⟨envelope, h⟩ | ⟨child, h⟩
      · exact absurd h (hhear envelope)
      · exact absurd h (hmiss child)
  | _ => cases actor

/-- **What a step of an agent can do.** -/
theorem Acted.evolves (distinct : e.ids.Nodup) (hs : s ∈ e.slots) (actor : m.actor? = some s.id)
    (h : Acted e s (e.deed m s.id) e') : Evolves e m e' := by
  have hadvance := Engine.advance_of_deed (e := e) actor
  generalize e.deed m s.id = deed at h hadvance
  obtain ⟨acts, slots, runs, closed⟩ := h
  have number := acts.number_le
  have id := acts.id_eq
  generalize hn : e'.world.nextNumber = n at acts number
  cases acts with
  | passed passes =>
    have hd := drifts_phase _ s.agent rfl passes.going passes.pending
    exact (Drift.swap distinct hs hd slots (hn ▸ number)).evolves m
  | heard phase inbox =>
    exact evolves_swap distinct hs slots (hn ▸ number)
      (.received (hadvance (Or.inl ⟨_, rfl⟩)) phase inbox) id
  | @began request a call deadline phase begun =>
    obtain ⟨-, -, rfl⟩ := begin_eq_some begun
    have turn : s.AtTurn := Or.inl phase
    have hd := drifts_phase (.calling call request.prompt deadline)
      { s.agent with stalled := true } rfl turn.going turn.idle.symm
    exact (Drift.swap distinct hs hd slots (hn ▸ number)).evolves m
  | @completed call prompt response deadline done phase complete =>
    have turn : s.AtTurn := Or.inr ⟨call, prompt, deadline, phase⟩
    have hbooked := booked_of_completed complete
    rw [← hn] at hbooked number
    exact evolves_swap distinct hs slots number
      (.turned actor turn.idle turn.going rfl rfl hbooked) id
  | @retried error turn few =>
    have hd := drifts_phase .delivering (s.failed.enqueue ("ERROR: " ++ error)) rfl turn.going
      turn.idle.symm
    exact (Drift.swap distinct hs hd slots (hn ▸ number)).evolves m
  | despaired turn many gives =>
    exact evolves_swap distinct hs slots (hn ▸ number) (gives.shift actor rfl turn hn) id
  | @revived call prompt deadline phase text now =>
    have turn : s.AtTurn := Or.inr ⟨call, prompt, deadline, phase⟩
    have hd := drifts_phase .delivering (((Watchdog.reset s.agent).touch now).enqueue text) rfl
      turn.going turn.idle.symm
    exact (Drift.swap distinct hs hd slots (hn ▸ number)).evolves m
  | @abandoned call prompt deadline a after phase gives =>
    have turn : s.AtTurn := Or.inr ⟨call, prompt, deadline, phase⟩
    exact evolves_swap distinct hs slots (hn ▸ number) (gives.shift actor rfl turn hn) id
  | missed phase gone =>
    exact evolves_swap distinct hs slots (hn ▸ number)
      (.bounced (hadvance (Or.inr ⟨_, rfl⟩)) phase gone) id
  | handed phase accepts =>
    exact evolves_handed distinct hs (by rw [phase]; rfl) accepts slots hn
  | @started helper kind prompt name scratch rest retiring phase =>
    refine evolves_added distinct hs (by rw [phase]; rfl) rfl slots (hn ▸ number) rfl rfl ?_
    intro p task hm
    cases List.mem_singleton.mp hm
    exact ⟨rfl, kind, prompt, scratch, rfl⟩
  | adopted phase =>
    exact evolves_added distinct hs (by rw [phase]; rfl) rfl slots (hn ▸ number) rfl rfl (by simp)
  | @released child ids rest retiring phase subtree =>
    have hpending : s.phase.pending = .release child :: rest := by
      rw [phase]
      rfl
    have hd : Drifts s { s with phase := .applying rest retiring } :=
      drifts_applied retiring hpending rfl
    have hfirst := Drift.swap distinct hs hd rfl (Nat.le_refl _)
    have hlast : Drift ((e.swap { s with phase := .applying rest retiring }).unlist ids) e' :=
      .of_slots slots (Nat.le_of_eq hn.symm)
    exact ((hfirst.trans (.unlist _ ids)).trans hlast).evolves m
  | @reported ending rest retiring phase =>
    have hpending := Slot.pending_of_ending phase
    have hfirst := Drift.swap distinct hs (drifts_concluded retiring hpending) rfl (Nat.le_refl _)
    have hsent := Drift.errand (e.swap (s.concluded rest retiring)) (ending.report? s)
    have hlast : Drift (((ending.report? s).elim .none
        (Report.errand (e.swap (s.concluded rest retiring)))).run
          (e.swap (s.concluded rest retiring))) e' := by
      refine .of_slots slots ?_
      rw [(Errand.run_frame _ _).1, hn]
      exact Nat.le_refl _
    exact ((hfirst.trans hsent).trans hlast).evolves m

/-- **What any move can do** where identities are distinct. -/
theorem step_evolves (distinct : e.ids.Nodup) (m : Move) : Evolves e m (e.step m) := by
  have change := step_change distinct m
  generalize e.step m = e' at change ⊢
  cases change with
  | still slots idle number closed => exact (Drift.of_slots slots number).evolves m
  | @posted id envelope outside slots number closed source =>
    have hsent : Drift e (e.send id envelope) := by
      refine .send e id fun p task h => ?_
      rcases source with ⟨text, rfl⟩ | ⟨task', rfl⟩ <;> cases h
    exact (hsent.trans (.of_slots slots (Nat.le_of_eq number.symm))).evolves m
  | @crowned root systemRole outside present number closed slots =>
    refine ⟨_, [_], Nat.le.intro number.symm, slots, ?_, ?_⟩
    · intro t ht
      refine .calm (Drifts.calm ?_)
      split
      · exact ⟨rfl, id, ⟨[], rfl, by simp⟩, ⟨[], by simp, by simp⟩⟩
      · exact .refl t
    · intro t ht
      obtain rfl := List.mem_singleton.mp ht
      refine ⟨rfl, .crowned rfl (number ▸ Nat.lt_succ_self _) (fun s _ => ?_) rfl ?_ rfl rfl⟩
      · split <;> rfl
      rintro c ⟨entry, link, hget, rfl⟩
      cases List.mem_singleton.mp (Table.mem_of_get? hget)
      exact present
  | acted mem actor acted => exact acted.evolves distinct mem actor

end Arbor
