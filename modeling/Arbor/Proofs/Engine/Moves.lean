import Arbor.Engine.Settle
import Arbor.Proofs.Turn.Bookkeeping

/-! # What one move of the engine can do

A *move* is whatever can happen to an engine: a step of one agent, the answer to a call, a request
from outside, a stage of a run, a master, a change of the world around, the end. Moves of different
agents follow one another in any order.

Most moves only let slots *drift*: books stay as they are, envelopes that hand over no work come in,
and effects are struck off that add no agent. The others are few.

* `Drifts`, `Drift`: what most moves do.
* `Shift`, `Joins`: what a move can do to a slot, and which slot it can add.
* `Evolves`: what a move can do to an engine. That every move does so is shown in `Steps`. -/

namespace Arbor

open Turn

/-- Whatever can happen to an engine. -/
inductive Move where
  /-- An agent takes one step of its own: it takes in an envelope, begins a turn, applies an effect. -/
  | advance (id : AgentId)
  /-- The model answers the call of an agent, with any reply or failure. -/
  | answer (id : AgentId) (reply : Except Model.Error String)
  | prompt (id : AgentId) (text : String)
  | enterRun (id : AgentId) (text : String)
  | admitRun (run : Nat)
  | registerRun (run : Nat)
  | dispatchRun (run : Nat)
  | attachMaster (systemRole : Option Bool)
  /-- Time passes, files change, answers of the executor and of the human are laid down. -/
  | setWorld (world : World)
  | shutdown

/-- The agent whose own step or turn a move is. -/
def Move.actor? : Move → Option AgentId
  | .advance id => some id
  | .answer id _ => some id
  | _ => none

namespace Engine

/-- **The engine after a move;** one that cannot be made changes nothing. -/
def step (e : Engine) : Move → Engine
  | .advance id => (e.advance? id).getD e
  | .answer id reply => e.answer id reply
  | .prompt id text => (e.sendPrompt id text).toOption.getD e
  | .enterRun id text => (e.enterRun id text).2
  | .admitRun run => e.admitRun run
  | .registerRun run => e.registerRun run
  | .dispatchRun run => e.dispatchRun run
  | .attachMaster systemRole => (e.attachMaster systemRole).toOption.getD e
  | .setWorld world => { e with world := { world with nextNumber := e.world.nextNumber } }
  | .shutdown => e.shutdown

/-- The engine after moves. -/
def follow (e : Engine) (moves : List Move) : Engine := moves.foldl step e

/-- The identities of the agents, listed or not. -/
def ids (e : Engine) : List AgentId := e.slots.map Slot.id

end Engine

namespace Phase

@[simp] theorem pending_waiting : waiting.pending = [] := rfl

@[simp] theorem pending_delivering : delivering.pending = [] := rfl

@[simp] theorem pending_ready : ready.pending = [] := rfl

@[simp] theorem pending_calling (call : Call) (prompt : String) (deadline : Option Nat) :
    (calling call prompt deadline).pending = [] := rfl

@[simp] theorem pending_applying (effects : List Effect) (retiring : Bool) :
    (applying effects retiring).pending = effects := rfl

@[simp] theorem pending_refreshing (call : Call) (doc : Path) (ending : Ending)
    (rest : List Effect) (retiring : Bool) :
    (refreshing call doc ending rest retiring).pending = .finish ending :: rest := rfl

@[simp] theorem pending_stopped : stopped.pending = [] := rfl

end Phase

namespace Slot

/-- Nothing can be sent to the agent any more. -/
def Closed (s : Slot) : Prop := s.listed = false ∨ s.phase = .stopped

/-- The agents that the effects left will add. -/
def newcomers (s : Slot) : List AgentId := s.phase.pending.filterMap Effect.newcomer?

end Slot

/-! ### Drifting -/

/-- The slot changes in nothing that concerns who works for whom. -/
structure Drifts (s s' : Slot) : Prop where
  books : s'.agent.books = s.agent.books
  closed : s.Closed → s'.Closed
  pending : ∃ done, s.phase.pending = done ++ s'.phase.pending ∧
    ∀ effect ∈ done, effect.newcomer? = none
  inbox : ∃ more, s'.inbox = s.inbox ++ more ∧ ∀ p task, Envelope.task (some p) task ∉ more

theorem Drifts.refl (s : Slot) : Drifts s s :=
  ⟨rfl, id, ⟨[], rfl, by simp⟩, ⟨[], by simp, by simp⟩⟩

theorem Drifts.trans {s t u : Slot} (h : Drifts s t) (h' : Drifts t u) : Drifts s u := by
  obtain ⟨done, hd, hnone⟩ := h.pending
  obtain ⟨done', hd', hnone'⟩ := h'.pending
  obtain ⟨more, hm, hfree⟩ := h.inbox
  obtain ⟨more', hm', hfree'⟩ := h'.inbox
  refine ⟨h'.books.trans h.books, fun hc => h'.closed (h.closed hc), ⟨done ++ done', ?_, ?_⟩,
    ⟨more ++ more', ?_, ?_⟩⟩
  · rw [hd, hd', List.append_assoc]
  · intro effect he
    rcases List.mem_append.mp he with he | he
    · exact hnone effect he
    · exact hnone' effect he
  · rw [hm', hm, List.append_assoc]
  · intro p task he
    rcases List.mem_append.mp he with he | he
    · exact hfree p task he
    · exact hfree' p task he

theorem Drifts.id_eq {s s' : Slot} (h : Drifts s s') : s'.id = s.id := congrArg Books.id h.books

/-- Another phase with the same effects left is a drift, as long as a stopped agent stays so. -/
theorem drifts_phase {s : Slot} (phase : Phase) (a : Agent) (books : a.books = s.agent.books)
    (going : s.phase ≠ .stopped) (pending : phase.pending = s.phase.pending) :
    Drifts s { s with agent := a, phase := phase } := by
  refine ⟨books, fun hc => ?_, ⟨[], by simp [pending], by simp⟩, ⟨[], by simp, by simp⟩⟩
  rcases hc with hc | hc
  · exact Or.inl hc
  · exact absurd hc going

/-- So is striking off an effect that adds no agent. -/
theorem drifts_applied {s : Slot} {effect : Effect} {rest : List Effect} (retiring : Bool)
    (pending : s.phase.pending = effect :: rest) (none : effect.newcomer? = none) :
    Drifts s { s with phase := .applying rest retiring } := by
  refine ⟨rfl, fun hc => ?_, ⟨[effect], pending, by simpa using none⟩,
    ⟨[], by simp, by simp⟩⟩
  rcases hc with hc | hc
  · exact Or.inl hc
  · rw [hc] at pending
    cases pending

theorem drifts_unlisted (s : Slot) : Drifts s { s with listed := false } :=
  ⟨rfl, fun _ => Or.inl rfl, ⟨[], rfl, by simp⟩, ⟨[], by simp, by simp⟩⟩

theorem drifts_sent (s : Slot) {envelope : Envelope}
    (free : ∀ p task, envelope ≠ .task (some p) task) :
    Drifts s { s with inbox := s.inbox ++ [envelope] } := by
  refine ⟨rfl, id, ⟨[], rfl, by simp⟩, ⟨[envelope], rfl, ?_⟩⟩
  intro p task hm
  exact free p task (List.mem_singleton.mp hm).symm

/-- All slots drift, and numbers are only taken. -/
structure Drift (e e' : Engine) : Prop where
  number : e.world.nextNumber ≤ e'.world.nextNumber
  slots : ∃ g : Slot → Slot, e'.slots = e.slots.map g ∧ ∀ s ∈ e.slots, Drifts s (g s)

namespace Drift

variable {e e' e'' : Engine}

/-- Whatever leaves the slots alone. -/
theorem of_slots (slots : e'.slots = e.slots) (number : e.world.nextNumber ≤ e'.world.nextNumber) :
    Drift e e' :=
  ⟨number, id, by simp [slots], fun s _ => .refl s⟩

theorem refl (e : Engine) : Drift e e := of_slots rfl (Nat.le_refl _)

theorem trans (h : Drift e e') (h' : Drift e' e'') : Drift e e'' := by
  obtain ⟨g, hg, hs⟩ := h.slots
  obtain ⟨g', hg', hs'⟩ := h'.slots
  refine ⟨Nat.le_trans h.number h'.number, g' ∘ g, by rw [hg', hg, List.map_map], fun s hm => ?_⟩
  refine (hs s hm).trans (hs' (g s) ?_)
  rw [hg]
  exact List.mem_map_of_mem hm

theorem modifySlot {id : AgentId} {f : Slot → Slot}
    (h : ∀ s ∈ e.slots, s.id = id → Drifts s (f s)) : Drift e (e.modifySlot id f) := by
  refine ⟨Nat.le_refl _, _, rfl, fun s hm => ?_⟩
  by_cases hs : s.id = id
  · rw [if_pos hs]
    exact h s hm hs
  · rw [if_neg hs]
    exact .refl s

theorem send (e : Engine) (id : AgentId) {envelope : Envelope}
    (free : ∀ p task, envelope ≠ .task (some p) task) : Drift e (e.send id envelope) :=
  modifySlot fun s _ _ => drifts_sent s free

theorem unlist (e : Engine) (ids : List AgentId) : Drift e (e.unlist ids) := by
  refine ⟨Nat.le_refl _, _, rfl, fun s _ => ?_⟩
  split
  · exact drifts_unlisted s
  · exact .refl s

theorem answerRun (e : Engine) (r : Report) : Drift e (e.answerRun r) := by
  unfold Engine.answerRun
  split
  · exact .refl e
  · simp only
    split <;> exact of_slots rfl (Nat.le_refl _)

end Drift

/-! ### Finding slots -/

namespace Engine

variable {e : Engine} {s t : Slot} {id : AgentId}

theorem mem_of_slot? (h : e.slot? id = some s) : s ∈ e.slots ∧ s.id = id :=
  ⟨List.mem_of_find?_eq_some h, by simpa using List.find?_some h⟩

theorem mem_of_listed? (h : e.listed? id = some s) : s ∈ e.slots ∧ s.id = id ∧ s.listed = true :=
  ⟨List.mem_of_find?_eq_some h, by simpa using List.find?_some h⟩

/-- Where identities are distinct, an agent has one slot. -/
theorem eq_of_id_eq (distinct : e.ids.Nodup) (hs : s ∈ e.slots) (ht : t ∈ e.slots)
    (h : t.id = s.id) : t = s :=
  List.inj_on_of_nodup_map distinct ht hs h

theorem slot?_of_mem (distinct : e.ids.Nodup) (hs : s ∈ e.slots) : e.slot? s.id = some s := by
  cases hf : e.slot? s.id with
  | none =>
    have hnone := List.find?_eq_none.mp hf s hs
    simp at hnone
  | some t =>
    obtain ⟨ht, hid⟩ := mem_of_slot? hf
    rw [eq_of_id_eq distinct hs ht hid]

theorem listed?_of_mem (distinct : e.ids.Nodup) (hs : s ∈ e.slots) (listed : s.listed = true) :
    e.listed? s.id = some s := by
  cases hfound : e.listed? s.id with
  | none =>
    have hnone := List.find?_eq_none.mp hfound s hs
    simp [listed] at hnone
  | some t =>
    obtain ⟨ht, hid, -⟩ := mem_of_listed? hfound
    rw [eq_of_id_eq distinct hs ht hid]

/-- Changes of a slot that leave its identity and its listing as they are leave the same slots listed. -/
theorem listed?_modifySlot (e : Engine) {f : Slot → Slot} (same : ∀ t, (f t).id = t.id)
    (listed : ∀ t, (f t).listed = t.listed) (id x : AgentId) :
    (e.modifySlot id f).listed? x = (e.listed? x).map fun t => if t.id = id then f t else t := by
  unfold Engine.listed? modifySlot
  rw [List.find?_map]
  congr 2
  funext t
  simp only [Function.comp_apply]
  split
  · rw [same, listed]
  · rfl

theorem step_advance (distinct : e.ids.Nodup) (hs : s ∈ e.slots) :
    e.step (.advance s.id) = (e.stepSlot? s).getD e := by
  rw [step, advance?, slot?_of_mem distinct hs]
  rfl

theorem not_closed_of_accepts (distinct : e.ids.Nodup) (hs : s ∈ e.slots)
    (h : e.accepts s.id = true) : ¬ s.Closed := by
  obtain ⟨t, ht, hphase⟩ := (Option.any_eq_true _ _).mp h
  obtain ⟨ht, hid, hlisted⟩ := mem_of_listed? ht
  obtain rfl := eq_of_id_eq distinct hs ht hid
  rintro (hc | hc)
  · rw [hlisted] at hc
    cases hc
  · rw [hc] at hphase
    cases hphase

theorem closed_of_not_accepts (hs : s ∈ e.slots) (distinct : e.ids.Nodup)
    (h : e.accepts s.id = false) : s.Closed := by
  by_contra hc
  have hopen : s.listed = true ∧ s.phase ≠ .stopped := by
    simpa [Slot.Closed] using hc
  have hphase : (s.phase != .stopped) = true := by simpa using hopen.2
  simp [accepts, listed?_of_mem distinct hs hopen.1, hphase] at h

end Engine

/-! ### What a move can do -/

/-- An agent is about to hand a task to another. -/
def Sends (e : Engine) (p c : AgentId) (task : Task) : Prop :=
  ∃ s ∈ e.slots, s.id = p ∧ ∃ rest, s.phase.pending = .delegate c task :: rest

/-- The slot keeps its books. An effect that adds an agent is struck off when the agent is there,
and work that comes in is being handed over. -/
structure Calm (e e' : Engine) (s s' : Slot) : Prop where
  books : s'.agent.books = s.agent.books
  closed : s.Closed → s'.Closed
  pending : ∃ done, s.phase.pending = done ++ s'.phase.pending ∧
    ∀ effect ∈ done, ∀ c, effect.newcomer? = some c → c ∈ e'.ids
  inbox : ∃ more, s'.inbox = s.inbox ++ more ∧
    ∀ p task, Envelope.task (some p) task ∈ more → Sends e p s.id task ∧ ¬ s.Closed

/-- The slot of an agent that is told that its child is gone. -/
def Slot.bereft (s : Slot) (child : AgentId) (rest : List Effect) (retiring : Bool) : Slot :=
  { s with
    agent := (s.agent.dismissChild child).enqueue Engine.goneChild
    phase := .applying rest retiring }

/-- What a move can do to a slot. -/
inductive Shift (e : Engine) (m : Move) (e' : Engine) (s : Slot) : Slot → Prop where
  | calm {s' : Slot} (calm : Calm e e' s s') : Shift e m e' s s'
  /-- The agent takes in the first envelope. -/
  | received {envelope : Envelope} {rest : List Envelope} (move : m = .advance s.id)
      (phase : s.phase = .delivering) (inbox : s.inbox = envelope :: rest) :
      Shift e m e' s { s with agent := s.agent.receive envelope e.world.now, inbox := rest }
  /-- A turn ends, or the agent gives up its task. -/
  | turned {s' : Slot} (actor : m.actor? = some s.id) (idle : s.phase.pending = [])
      (going : s.phase ≠ .stopped) (listed : s'.listed = s.listed) (inbox : s'.inbox = s.inbox)
      (booked : Booked s.agent.books e.world.nextNumber s'.agent.books e'.world.nextNumber
        s'.phase.pending) : Shift e m e' s s'
  /-- Work cannot be handed over, since the child is gone. -/
  | bounced {child : AgentId} {task : Task} {rest : List Effect} {retiring : Bool}
      (move : m = .advance s.id)
      (phase : s.phase = .applying (.delegate child task :: rest) retiring)
      (gone : e.accepts child = false) : Shift e m e' s (s.bereft child rest retiring)

/-- Which slot a move can add, where `g` is what it does to those that are there. -/
inductive Joins (e e' : Engine) (g : Slot → Slot) (t : Slot) : Prop where
  /-- A helper or the agent of a new entry. -/
  | started {s : Slot} {effect : Effect} {rest : List Effect} (mem : s ∈ e.slots)
      (pending : s.phase.pending = effect :: rest) (newcomer : effect.newcomer? = some t.id)
      (after : (g s).phase.pending = rest) (idle : t.phase = .waiting)
      (childless : t.agent.children = []) (free : t.agent.task = none)
      (inbox : ∀ p task, Envelope.task (some p) task ∈ t.inbox →
        p = s.id ∧ ∃ kind prompt scratch, effect = .spawn t.id kind prompt scratch)
  /-- A master. -/
  | crowned (number : t.id = ⟨e.world.nextNumber⟩)
      (taken : e.world.nextNumber < e'.world.nextNumber)
      (still : ∀ s ∈ e.slots, (g s).phase.pending = s.phase.pending) (idle : t.phase = .waiting)
      (children : ∀ c, HasChild t.agent.children c → c ∈ e.ids) (free : t.agent.task = none)
      (inbox : t.inbox = [])

/-- A move does `g` to the slots that are there, and adds `new`. -/
structure Evolution (e : Engine) (m : Move) (e' : Engine) (g : Slot → Slot) (new : List Slot) :
    Prop where
  number : e.world.nextNumber ≤ e'.world.nextNumber
  slots : e'.slots = e.slots.map g ++ new
  shift : ∀ s ∈ e.slots, Shift e m e' s (g s)
  join : ∀ t ∈ new, new = [t] ∧ Joins e e' g t

/-- What a move can do to an engine. -/
def Evolves (e : Engine) (m : Move) (e' : Engine) : Prop := ∃ g new, Evolution e m e' g new

theorem Drifts.calm {e e' : Engine} {s s' : Slot} (h : Drifts s s') : Calm e e' s s' := by
  obtain ⟨done, hd, hnone⟩ := h.pending
  obtain ⟨more, hm, hfree⟩ := h.inbox
  refine ⟨h.books, h.closed, ⟨done, hd, ?_⟩, ⟨more, hm, ?_⟩⟩
  · intro effect he c hc
    rw [hnone effect he] at hc
    cases hc
  · intro p task ht
    exact absurd ht (hfree p task)

theorem Drift.evolves {e e' : Engine} (m : Move) (h : Drift e e') : Evolves e m e' := by
  obtain ⟨g, hg, hs⟩ := h.slots
  refine ⟨g, [], h.number, by simp [hg], fun s hm => .calm (hs s hm).calm, by simp⟩

end Arbor
