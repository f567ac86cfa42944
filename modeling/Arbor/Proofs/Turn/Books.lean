import Arbor.Agent.Reception
import Arbor.Proofs.Table
import Arbor.Proofs.Turn.Verbs

/-! # The books of an agent

The *books* of an agent are what concerns its task and other agents: its children, its helpers, whom
it has handed work, and the task with its origin.

* `Agent.books_receive`: what an envelope enters in them.
* `Booked`: the entries that a turn can make, each with the effects that go with it.
* `Booked.kept`: as long as a child is on the list of those at work, a turn keeps both the child and
  the task. -/

namespace Arbor

open Directive Turn

/-- The parts of an agent that concern its task and other agents. -/
structure Books where
  id : AgentId
  kind : Kind
  children : Table ChildLink
  task : Option Task
  origin : Option AgentId
  delegated : List (AgentId × String)
  helpers : List AgentId
  completed : List TaskId

/-- The books of an agent. -/
def Agent.books (a : Agent) : Books where
  id := a.id
  kind := a.kind
  children := a.children
  task := a.task
  origin := a.origin
  delegated := a.delegated
  helpers := a.helpers
  completed := a.completed

namespace Books

/-- Those who were handed work and have not reported. -/
def handedTo (b : Books) : List AgentId := b.delegated.map Prod.fst

/-- Notes that a child was handed a prompt. -/
def hand (b : Books) (order : AgentId × String) : Books :=
  { b with delegated := (b.delegated.filter fun x => x.1 != order.1) ++ [order] }

/-- Notes that children were handed prompts in turn. -/
def handAll (b : Books) (orders : List (AgentId × String)) : Books := orders.foldl hand b

/-- Closes the books on the task. -/
def retire (b : Books) : Books :=
  { b with task := none, origin := none, completed := b.completed ++ (b.task.map Task.id).toList }

theorem mem_handedTo_hand {b : Books} {order : AgentId × String} {c : AgentId} :
    c ∈ (b.hand order).handedTo ↔ c = order.1 ∨ c ∈ b.handedTo := by
  simp only [handedTo, hand, List.map_append, List.mem_append, List.mem_map, List.mem_filter,
    bne_iff_ne, List.map_singleton, List.mem_singleton]
  constructor
  · rintro (⟨x, ⟨hx, -⟩, rfl⟩ | rfl)
    · exact Or.inr ⟨x, hx, rfl⟩
    · exact Or.inl rfl
  · rintro (rfl | ⟨x, hx, rfl⟩)
    · exact Or.inr rfl
    · by_cases h : x.1 = order.1
      · exact Or.inr h
      · exact Or.inl ⟨x, ⟨hx, h⟩, rfl⟩

theorem mem_handedTo_handAll {b : Books} {orders : List (AgentId × String)} {c : AgentId} :
    c ∈ (b.handAll orders).handedTo ↔ c ∈ orders.map Prod.fst ∨ c ∈ b.handedTo := by
  induction orders generalizing b with
  | nil => simp [handAll]
  | cons order rest ih =>
    have h := ih (b := b.hand order)
    rw [mem_handedTo_hand] at h
    simp only [List.map_cons, List.mem_cons]
    refine h.trans ⟨?_, ?_⟩
    · rintro (h | h | h)
      · exact Or.inl (Or.inr h)
      · exact Or.inl (Or.inl h)
      · exact Or.inr h
    · rintro ((h | h) | h)
      · exact Or.inr (Or.inl h)
      · exact Or.inl h
      · exact Or.inr (Or.inr h)

/-- Handing out work changes nothing else. -/
theorem handAll_eq (b : Books) (orders : List (AgentId × String)) :
    b.handAll orders = { b with delegated := (b.handAll orders).delegated } := by
  induction orders generalizing b with
  | nil => rfl
  | cons order rest ih =>
    have h := ih (b.hand order)
    exact h

/-- Strikes a child off those at work. -/
def dismiss (b : Books) (child : AgentId) : Books :=
  { b with delegated := b.delegated.filter fun d => d.1 != child }

theorem mem_handedTo_dismiss {b : Books} {child c : AgentId} :
    c ∈ (b.dismiss child).handedTo ↔ c ∈ b.handedTo ∧ c ≠ child := by
  simp only [handedTo, dismiss, List.mem_map, List.mem_filter, bne_iff_ne]
  constructor
  · rintro ⟨d, ⟨hd, hne⟩, rfl⟩
    exact ⟨⟨d, hd, rfl⟩, hne⟩
  · rintro ⟨⟨d, hd, rfl⟩, hne⟩
    exact ⟨d, ⟨hd, hne⟩, rfl⟩

/-! ### Envelopes -/

/-- What an envelope enters in the books: a task that an idle agent takes on, and a report that
strikes its sender off. -/
def receive (b : Books) : Envelope → Books
  | .plain _ => b
  | .task sender task => if b.task.isSome then b else { b with task := some task, origin := sender }
  | .report r =>
    if b.kind.isHelper then b
    else if r.sender ∈ b.handedTo then b.dismiss r.sender
    else { b with helpers := b.helpers.filter fun h => h != r.sender }

theorem receive_id (b : Books) (envelope : Envelope) : (b.receive envelope).id = b.id := by
  unfold receive
  split
  · rfl
  · split <;> rfl
  · split
    · rfl
    · split <;> rfl

theorem receive_kind (b : Books) (envelope : Envelope) : (b.receive envelope).kind = b.kind := by
  unfold receive
  split
  · rfl
  · split <;> rfl
  · split
    · rfl
    · split <;> rfl

theorem receive_children (b : Books) (envelope : Envelope) :
    (b.receive envelope).children = b.children := by
  unfold receive
  split
  · rfl
  · split <;> rfl
  · split
    · rfl
    · split <;> rfl

/-- The envelope makes an idle agent take on its task, or leaves everything about tasks alone. -/
theorem receive_task_cases (b : Books) (envelope : Envelope) :
    ((b.receive envelope).task = b.task ∧ (b.receive envelope).origin = b.origin ∧
      (b.receive envelope).completed = b.completed ∧
      (b.task = none → ∀ sender task, envelope ≠ .task sender task)) ∨
    b.task = none ∧ ∃ sender task, envelope = .task sender task ∧
      b.receive envelope = { b with task := some task, origin := sender } := by
  cases envelope with
  | plain text => exact Or.inl ⟨rfl, rfl, rfl, fun _ _ _ h => by cases h⟩
  | task sender task =>
    cases htask : b.task with
    | none => exact Or.inr ⟨rfl, sender, task, rfl, by simp [receive, htask]⟩
    | some held => exact Or.inl (by simp [receive, htask])
  | report r =>
    refine Or.inl ?_
    simp only [receive]
    split
    · exact ⟨rfl, rfl, rfl, fun _ _ _ h => by cases h⟩
    · split <;> exact ⟨rfl, rfl, rfl, fun _ _ _ h => by cases h⟩

/-- The task and its origin stay, or are those of the envelope. -/
theorem receive_task (b : Books) (envelope : Envelope) :
    ((b.receive envelope).task = b.task ∧ (b.receive envelope).origin = b.origin) ∨
      b.task = none ∧ ∃ task, envelope = .task (b.receive envelope).origin task := by
  rcases b.receive_task_cases envelope with ⟨htask, horigin, -⟩ | ⟨hnone, sender, task, henv, heq⟩
  · exact Or.inl ⟨htask, horigin⟩
  · refine Or.inr ⟨hnone, task, ?_⟩
    rw [heq]
    exact henv

/-- Only the sender of a report is struck off. -/
theorem handedTo_receive {b : Books} (envelope : Envelope) {c : AgentId} (hc : c ∈ b.handedTo) :
    c ∈ (b.receive envelope).handedTo ∨
      b.kind.isHelper = false ∧ ∃ r, envelope = .report r ∧ r.sender = c := by
  unfold receive
  split
  · exact Or.inl hc
  · split <;> exact Or.inl hc
  · next r =>
    split
    · exact Or.inl hc
    · next hk =>
      split
      · by_cases he : r.sender = c
        · exact Or.inr ⟨by simpa using hk, r, rfl, he⟩
        · exact Or.inl (mem_handedTo_dismiss.mpr ⟨hc, fun h => he h.symm⟩)
      · exact Or.inl hc

/-- An envelope puts nobody on the list of those at work. -/
theorem mem_handedTo_of_receive {b : Books} {envelope : Envelope} {c : AgentId}
    (hc : c ∈ (b.receive envelope).handedTo) : c ∈ b.handedTo := by
  unfold receive at hc
  split at hc
  · exact hc
  · split at hc <;> exact hc
  · split at hc
    · exact hc
    · split at hc
      · exact (mem_handedTo_dismiss.mp hc).1
      · exact hc

/-- A report strikes its sender off. -/
theorem sender_not_mem_handedTo {b : Books} (lasting : b.kind.isHelper = false) (r : Report) :
    r.sender ∉ (b.receive (.report r)).handedTo := by
  rw [receive, if_neg (by simp [lasting])]
  split
  · exact fun h => (mem_handedTo_dismiss.mp h).2 rfl
  · next h => exact h

end Books

theorem Agent.books_takeTask (a : Agent) (sender : Option AgentId) (task : Task) (now : Nat) :
    (a.takeTask sender task now).books = a.books.receive (.task sender task) := by
  by_cases h : a.isActive = true
  · have hb : a.books.task.isSome = true := h
    rw [Agent.takeTask, if_pos h, Books.receive, if_pos hb]
    rfl
  · have hb : ¬ a.books.task.isSome = true := h
    rw [Agent.takeTask, if_neg h, Books.receive, if_neg hb]
    rfl

theorem Agent.books_takeReport (a : Agent) (r : Report) :
    (a.takeReport r).books = a.books.receive (.report r) := by
  have hmem : (a.delegated.any fun d => d.1 = r.sender) = true ↔ r.sender ∈ a.books.handedTo := by
    simp [Books.handedTo, Agent.books]
  unfold Agent.takeReport Agent.dismiss Books.receive
  simp only [hmem]
  by_cases hk : a.kind.isHelper = true
  · rw [if_pos hk, if_pos (show a.books.kind.isHelper = true from hk)]
    rfl
  · rw [if_neg hk, if_neg (show ¬ a.books.kind.isHelper = true from hk)]
    split <;> rfl

/-- Before it takes in an envelope, the master notes that it is active. -/
theorem Agent.noted_eq (a : Agent) (now : Nat) :
    ∃ later, (if a.kind = .master then a.touch now else a) = { a with lastActivity := later } := by
  split
  · exact ⟨now, rfl⟩
  · exact ⟨a.lastActivity, rfl⟩

/-- **What taking in an envelope enters in the books.** -/
theorem Agent.books_receive (a : Agent) (envelope : Envelope) (now : Nat) :
    (a.receive envelope now).books = a.books.receive envelope := by
  obtain ⟨later, hnoted⟩ := a.noted_eq now
  unfold Agent.receive
  simp only [hnoted]
  cases envelope with
  | plain text => rfl
  | task sender task => exact Agent.books_takeTask { a with lastActivity := later } sender task now
  | report r => exact Agent.books_takeReport { a with lastActivity := later } r

/-- No envelope changes the children. -/
theorem Agent.receive_children (a : Agent) (envelope : Envelope) (now : Nat) :
    (a.receive envelope now).children = a.children :=
  (congrArg Books.children (a.books_receive envelope now)).trans (a.books.receive_children envelope)

/-! ### Entries of a turn -/

/-- The numbers of new agents, from `n` on. -/
def freshIds (n k : Nat) : List AgentId := (List.range' n k).map AgentId.mk

theorem mem_freshIds {n k : Nat} {c : AgentId} :
    c ∈ freshIds n k ↔ n ≤ c.number ∧ c.number < n + k := by
  simp only [freshIds, List.mem_map, List.mem_range'_1]
  constructor
  · rintro ⟨m, hm, rfl⟩
    exact hm
  · intro h
    exact ⟨c.number, h, rfl⟩

theorem nodup_freshIds (n k : Nat) : (freshIds n k).Nodup := by
  refine List.Nodup.map ?_ List.nodup_range'
  intro i j h
  exact AgentId.mk.inj h

/-- The agent that an effect adds. -/
def Effect.newcomer? : Effect → Option AgentId
  | .spawn id _ _ _ => some id
  | .adopt id _ _ => some id
  | _ => none

/-- The helper that an effect starts. -/
def Effect.helper? : Effect → Option AgentId
  | .spawn id _ _ _ => some id
  | _ => none

/-- Where helpers are started, or all but started, whatever is asked for is one of them. -/
theorem helper?_of_started {effects : List Effect} {ids : List AgentId}
    (started : effects = [] ∨ effects.map Effect.helper? = ids.map some) {effect : Effect}
    (hm : effect ∈ effects) : ∃ id ∈ ids, effect.helper? = some id := by
  rcases started with rfl | started
  · cases hm
  · have hsome := List.mem_map_of_mem (f := Effect.helper?) hm
    rw [started] at hsome
    obtain ⟨id, hid, heq⟩ := List.mem_map.mp hsome
    exact ⟨id, hid, heq.symm⟩

/-- Whoever starts helpers adds them. -/
theorem map_newcomer?_of_helper? {effects : List Effect} {ids : List AgentId}
    (h : effects.map Effect.helper? = ids.map some) :
    effects.map Effect.newcomer? = ids.map some := by
  rw [← h]
  refine List.map_congr_left fun effect he => ?_
  obtain ⟨c, -, hc⟩ := helper?_of_started (Or.inr h) he
  cases effect with
  | spawn id kind prompt scratch => rfl
  | _ => cases hc

/-- **The entries that a turn can make in the books,** with the numbers that it takes and the effects
that it returns. -/
inductive Booked (b : Books) (n : Nat) : Books → Nat → List Effect → Prop where
  | nothing : Booked b n b n []
  /-- A new entry has a new agent. -/
  | adopted {entry : String} {kind : Kind} {path : Path} (free : b.children.get? entry = none)
      (lasting : kind.isHelper = false) :
      Booked b n { b with children := b.children.put entry { id := ⟨n⟩, kind := kind } } (n + 1)
        [.adopt ⟨n⟩ kind path]
  /-- The agent of an entry is let go, which was not at work. -/
  | dropped {entry : String} {link : ChildLink} (child : b.children.get? entry = some link)
      (idle : link.id ∉ b.handedTo) :
      Booked b n { b with children := b.children.drop entry } n [.release link.id]
  /-- Children are handed tasks. -/
  | handed {orders : List (AgentId × String)} 
      (children : ∀ order ∈ orders, HasChild b.children order.1) :
      Booked b n (b.handAll orders) (n + orders.length) (tasksFrom n orders)
  /-- Helpers are started, or all but started. -/
  | hired {k : Nat} {effects : List Effect}
      (started : effects = [] ∨ effects.map Effect.helper? = (freshIds n k).map some) :
      Booked b n { b with helpers := b.helpers ++ freshIds n k } (n + k) effects
  /-- The task ends, and nobody is at work for the agent. -/
  | retired {ending : Ending} (idle : b.delegated = [] ∧ b.helpers = [])
      (task : ending.task = b.task) (origin : ending.origin = b.origin) :
      Booked b n b.retire n [.finish ending]

theorem mem_tasksFrom {n : Nat} {orders : List (AgentId × String)} {effect : Effect}
    (h : effect ∈ tasksFrom n orders) :
    ∃ order ∈ orders, ∃ task, effect = .delegate order.1 task := by
  induction orders generalizing n with
  | nil => cases h
  | cons order rest ih =>
    rcases List.mem_cons.mp h with rfl | h
    · exact ⟨order, List.mem_cons_self, _, rfl⟩
    · obtain ⟨order', hm, htask⟩ := ih h
      exact ⟨order', List.mem_cons_of_mem _ hm, htask⟩

theorem exists_mem_tasksFrom {orders : List (AgentId × String)} {order : AgentId × String}
    (h : order ∈ orders) (n : Nat) : ∃ task, .delegate order.1 task ∈ tasksFrom n orders := by
  induction orders generalizing n with
  | nil => cases h
  | cons first rest ih =>
    rcases List.mem_cons.mp h with rfl | h
    · exact ⟨_, List.mem_cons_self⟩
    · obtain ⟨task, hm⟩ := ih h (n + 1)
      exact ⟨task, List.mem_cons_of_mem _ hm⟩

theorem filterMap_newcomer?_tasksFrom (n : Nat) (orders : List (AgentId × String)) :
    (tasksFrom n orders).filterMap Effect.newcomer? = [] := by
  rw [List.filterMap_eq_nil_iff]
  intro effect h
  obtain ⟨order, -, task, rfl⟩ := mem_tasksFrom h
  rfl

namespace Booked

variable {b b' : Books} {n n' : Nat} {effects : List Effect}

/-- Numbers are only taken. -/
theorem number_le (h : Booked b n b' n' effects) : n ≤ n' := by
  cases h with
  | nothing => exact Nat.le_refl n
  | adopted free lasting => exact Nat.le_succ n
  | dropped child idle => exact Nat.le_refl n
  | handed children => exact Nat.le_add_right n _
  | hired started => exact Nat.le_add_right n _
  | retired idle task origin => exact Nat.le_refl n

theorem id_eq (h : Booked b n b' n' effects) : b'.id = b.id := by
  cases h with
  | handed children => rw [Books.handAll_eq]
  | nothing => rfl
  | adopted free lasting => rfl
  | dropped child idle => rfl
  | hired started => rfl
  | retired idle task origin => rfl

/-- The agents that are added have new numbers, each once. -/
theorem newcomers (h : Booked b n b' n' effects) :
    (effects.filterMap Effect.newcomer?).Nodup ∧
      ∀ c ∈ effects.filterMap Effect.newcomer?, n ≤ c.number ∧ c.number < n' := by
  cases h with
  | nothing => simp
  | adopted free lasting => simp [Effect.newcomer?]
  | dropped child idle => exact ⟨List.nodup_nil, by simp [Effect.newcomer?]⟩
  | @handed orders children => simp [filterMap_newcomer?_tasksFrom]
  | @hired k _ started =>
    rcases started with rfl | started
    · simp
    · have hids : effects.filterMap Effect.newcomer? = freshIds n k := by
        have h := congrArg (List.filterMap id) (map_newcomer?_of_helper? started)
        simpa [List.filterMap_map] using h
      rw [hids]
      exact ⟨nodup_freshIds n k, fun c hc => mem_freshIds.mp hc⟩
  | retired idle task origin => exact ⟨List.nodup_nil, by simp [Effect.newcomer?]⟩

/-- A new child is the agent that is added. -/
theorem children (h : Booked b n b' n' effects) {c : AgentId} (hc : HasChild b'.children c) :
    HasChild b.children c ∨ c ∈ effects.filterMap Effect.newcomer? := by
  obtain ⟨entry, link, hget, rfl⟩ := hc
  cases h with
  | nothing => exact Or.inl ⟨entry, link, hget, rfl⟩
  | @adopted entry' kind path free lasting =>
    rw [Table.get?_put] at hget
    split at hget
    · cases hget
      exact Or.inr (by simp [Effect.newcomer?])
    · exact Or.inl ⟨entry, link, hget, rfl⟩
  | @dropped entry' link' child idle =>
    rw [Table.get?_drop] at hget
    split at hget
    · cases hget
    · exact Or.inl ⟨entry, link, hget, rfl⟩
  | handed children =>
    rw [Books.handAll_eq] at hget
    exact Or.inl ⟨entry, link, hget, rfl⟩
  | hired started => exact Or.inl ⟨entry, link, hget, rfl⟩
  | retired idle task origin => exact Or.inl ⟨entry, link, hget, rfl⟩

/-- A helper that is started is no child. -/
theorem spawn (h : Booked b n b' n' effects) {id : AgentId} {kind : HelperKind} {prompt : String}
    {scratch : Scratch} (hm : .spawn id kind prompt scratch ∈ effects) :
    n ≤ id.number ∧ b'.children = b.children := by
  have hnew := (h.newcomers).2 id (List.mem_filterMap.mpr ⟨_, hm, rfl⟩)
  refine ⟨hnew.1, ?_⟩
  cases h with
  | nothing => rfl
  | adopted free lasting => cases List.mem_singleton.mp hm
  | dropped child idle => cases List.mem_singleton.mp hm
  | handed children =>
    obtain ⟨order, -, task, he⟩ := mem_tasksFrom hm
    cases he
  | hired started => rfl
  | retired idle task origin => rfl

/-- Whoever is handed a task is a child, and on the list of those at work. -/
theorem delegate (h : Booked b n b' n' effects) {c : AgentId} {task : Task}
    (hm : .delegate c task ∈ effects) : HasChild b.children c ∧ c ∈ b'.handedTo := by
  cases h with
  | nothing => cases hm
  | adopted free lasting => cases List.mem_singleton.mp hm
  | dropped child idle => cases List.mem_singleton.mp hm
  | handed children =>
    obtain ⟨order, ho, task', he⟩ := mem_tasksFrom hm
    cases he
    exact ⟨children order ho, Books.mem_handedTo_handAll.mpr (Or.inl (List.mem_map_of_mem ho))⟩
  | hired started =>
    obtain ⟨c, -, hc⟩ := helper?_of_started started hm
    cases hc
  | retired idle task origin => cases List.mem_singleton.mp hm

/-- The report that a task has ended comes alone, and says what the books said. -/
theorem finish (h : Booked b n b' n' effects) {ending : Ending} (hm : .finish ending ∈ effects) :
    effects = [.finish ending] ∧ b' = b.retire ∧ ending.task = b.task ∧
      ending.origin = b.origin := by
  cases h with
  | nothing => cases hm
  | adopted free lasting => cases List.mem_singleton.mp hm
  | dropped child idle => cases List.mem_singleton.mp hm
  | handed children =>
    obtain ⟨order, -, task, he⟩ := mem_tasksFrom hm
    cases he
  | hired started =>
    obtain ⟨c, -, hc⟩ := helper?_of_started started hm
    cases hc
  | retired idle task origin =>
    cases List.mem_singleton.mp hm
    exact ⟨rfl, rfl, task, origin⟩

/-- The task stays and no end is reported, or it ends and its end is. -/
theorem task_cases (h : Booked b n b' n' effects) :
    (b'.task = b.task ∧ b'.origin = b.origin ∧ b'.completed = b.completed ∧
      ∀ ending, .finish ending ∉ effects) ∨
    ∃ ending, effects = [.finish ending] ∧ b' = b.retire ∧ ending.task = b.task ∧
      ending.origin = b.origin := by
  by_cases hfinish : ∃ ending, .finish ending ∈ effects
  · obtain ⟨ending, hm⟩ := hfinish
    exact Or.inr ⟨ending, h.finish hm⟩
  · refine Or.inl ?_
    have hnone := not_exists.mp hfinish
    cases h with
    | nothing => exact ⟨rfl, rfl, rfl, hnone⟩
    | adopted free lasting => exact ⟨rfl, rfl, rfl, hnone⟩
    | dropped child idle => exact ⟨rfl, rfl, rfl, hnone⟩
    | handed children =>
      rw [Books.handAll_eq]
      exact ⟨rfl, rfl, rfl, hnone⟩
    | hired started => exact ⟨rfl, rfl, rfl, hnone⟩
    | retired idle task origin => exact absurd List.mem_cons_self (hnone _)

/-- The task stays with its origin, or ends. -/
theorem task (h : Booked b n b' n' effects) :
    (b'.task = b.task ∧ b'.origin = b.origin) ∨ b'.task = none := by
  rcases h.task_cases with ⟨htask, horigin, -⟩ | ⟨ending, -, rfl, -⟩
  · exact Or.inl ⟨htask, horigin⟩
  · exact Or.inr rfl

/-- Nobody is struck off the list of those at work. -/
theorem handedTo (h : Booked b n b' n' effects) {c : AgentId} (hc : c ∈ b.handedTo) :
    c ∈ b'.handedTo := by
  cases h with
  | nothing => exact hc
  | adopted free lasting => exact hc
  | dropped child idle => exact hc
  | handed children => exact Books.mem_handedTo_handAll.mpr (Or.inr hc)
  | hired started => exact hc
  | retired idle task origin => exact hc

/-- Whoever is new on the list of those at work is a child that is about to be handed a task. -/
theorem handedTo_cases (h : Booked b n b' n' effects) {c : AgentId} (hc : c ∈ b'.handedTo) :
    c ∈ b.handedTo ∨ (HasChild b.children c ∧ ∃ task, .delegate c task ∈ effects) := by
  cases h with
  | nothing => exact Or.inl hc
  | adopted free lasting => exact Or.inl hc
  | dropped child idle => exact Or.inl hc
  | @handed orders children =>
    rcases Books.mem_handedTo_handAll.mp hc with hc | hc
    · obtain ⟨order, ho, rfl⟩ := List.mem_map.mp hc
      exact Or.inr ⟨children order ho, exists_mem_tasksFrom ho n⟩
    · exact Or.inl hc
  | hired started => exact Or.inl hc
  | retired idle task origin => exact Or.inl hc

theorem kind_eq (h : Booked b n b' n' effects) : b'.kind = b.kind := by
  cases h with
  | handed children => rw [Books.handAll_eq]
  | nothing => rfl
  | adopted free lasting => rfl
  | dropped child idle => rfl
  | hired started => rfl
  | retired idle task origin => rfl

/-- **As long as a child is at work,** it stays a child and the task stays. -/
theorem kept (h : Booked b n b' n' effects) {entry : String} {link : ChildLink}
    (hget : b.children.get? entry = some link) (hc : link.id ∈ b.handedTo) :
    b'.children.get? entry = some link ∧ b'.task = b.task := by
  cases h with
  | nothing => exact ⟨hget, rfl⟩
  | @adopted entry' kind path free lasting =>
    refine ⟨?_, rfl⟩
    rw [Table.get?_put, if_neg, hget]
    rintro rfl
    rw [free] at hget
    cases hget
  | @dropped entry' link' child idle =>
    refine ⟨?_, rfl⟩
    rw [Table.get?_drop, if_neg, hget]
    rintro rfl
    rw [child] at hget
    cases hget
    exact idle hc
  | handed children =>
    rw [Books.handAll_eq]
    exact ⟨hget, rfl⟩
  | hired started => exact ⟨hget, rfl⟩
  | retired idle task origin =>
    rw [Books.handedTo, idle.1] at hc
    cases hc

end Booked

end Arbor
