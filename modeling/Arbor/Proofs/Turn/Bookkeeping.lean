import Arbor.Proofs.Turn.Books
import Arbor.Turn.Round

/-! # What a turn does to the books

A directive makes one entry in the books of its agent at most, and every effect that it returns
matches that entry.

* `perform_booked`: carrying out a directive makes one of the entries that `Booked` lists.
* `complete_booked`: so does ending a turn, whatever the reply says.
* `complete_children`: whoever speaks as a coder keeps its children. -/

namespace Arbor.Turn

open Directive

variable {project : Project} {d d' : Desk}

theorem Unmoved.books (h : Unmoved d d') : d'.agent.books = d.agent.books := by
  obtain ⟨memory, now, ha⟩ := h.agent
  rw [ha]
  rfl

theorem busy?_eq_none {a : Agent} (h : a.busy? = none) : a.delegated = [] ∧ a.helpers = [] := by
  unfold Agent.busy? at h
  split at h
  · cases h
  · next hd =>
    split at h
    · cases h
    · next hh => exact ⟨by simpa using hd, by simpa using hh⟩

theorem released_books (d : Desk) : (released d).agent.books = d.agent.books := by
  simp only [released, (releaseScratch_cases d.agent d.world.site).1]
  rfl

theorem handedOut_books (orders : List (AgentId × String)) (d : Desk) :
    (handedOut orders d).agent.books = d.agent.books.handAll orders ∧
      (handedOut orders d).world.nextNumber = d.world.nextNumber + orders.length := by
  induction orders generalizing d with
  | nil => exact ⟨rfl, rfl⟩
  | cons order rest ih =>
    obtain ⟨hb, hn⟩ := ih { agent := d.agent.delegate order.1 order.2
                            world := { d.world with nextNumber := d.world.nextNumber + 1 } }
    refine ⟨hb, hn.trans ?_⟩
    simp only [List.length_cons]
    omega

theorem scratchTaken_books {scratch : Scratch} (h : ScratchTaken project d scratch d') :
    d'.agent.books = d.agent.books ∧ d'.world.nextNumber = d.world.nextNumber := by
  cases h <;> exact ⟨rfl, rfl⟩

theorem spawning_books {orders : List HelperOrder} {out : Except AgentError (List Effect) × Desk}
    (h : Spawning project orders d out) :
    ∃ k, out.2.agent.books =
        { d.agent.books with helpers := d.agent.helpers ++ freshIds d.world.nextNumber k } ∧
      out.2.world.nextNumber = d.world.nextNumber + k ∧
      ∀ effects, out.1 = .ok effects →
        effects.map Effect.helper? = (freshIds d.world.nextNumber k).map some := by
  induction h with
  | done d =>
    refine ⟨0, by simp [freshIds, Agent.books], rfl, ?_⟩
    rintro effects ⟨⟩
    rfl
  | refused order rest d e =>
    refine ⟨0, by simp [freshIds, Agent.books], rfl, ?_⟩
    rintro effects ⟨⟩
  | @next order rest d d' after scratch r ht hmore ih =>
    obtain ⟨k, hb, hn, he⟩ := ih
    obtain ⟨hbooks, hnumber⟩ := scratchTaken_books ht
    -- the first helper takes the next number, the others those behind it
    have hids : freshIds d.world.nextNumber (k + 1) =
        ⟨d.world.nextNumber⟩ :: freshIds (d.world.nextNumber + 1) k := by
      simp [freshIds, List.range'_succ]
    have hhelpers : d'.agent.helpers = d.agent.helpers := congrArg Books.helpers hbooks
    refine ⟨k + 1, ?_, ?_, ?_⟩
    · rw [hids]
      have hh : (hire d').agent.books = { d.agent.books with
          helpers := d.agent.helpers ++ [⟨d.world.nextNumber⟩] } := by
        rw [← hbooks, ← hhelpers, ← hnumber]
        rfl
      rw [hh] at hb
      rw [hb]
      simp [hire, hnumber, hhelpers]
    · rw [hn]
      simp only [hire, hnumber]
      omega
    · intro effects hok
      obtain ⟨more, rfl, rfl⟩ := map_eq_ok.mp hok
      rw [hids, List.map_cons, List.map_cons, he more rfl]
      simp only [hire, hnumber]
      rfl

theorem creation_booked {t : Target} {out : Except AgentError Step × Desk}
    (h : Creation project t d out) :
    Booked d.agent.books d.world.nextNumber out.2.agent.books out.2.world.nextNumber
      (effectsOf out.1) := by
  cases h with
  | refused e => exact .nothing
  | noteless e => exact .nothing
  | made note own absent free made =>
    refine .adopted free ?_
    unfold targetKind
    split <;> rfl

theorem deletion_booked {t : Target} {out : Except AgentError Step × Desk}
    (h : Deletion project t d out) :
    Booked d.agent.books d.world.nextNumber out.2.agent.books out.2.world.nextNumber
      (effectsOf out.1) := by
  cases h with
  | refused e => exact .nothing
  | unlinked note own present type removed noChild => exact .nothing
  | @linked entry path files link note own present type removed child idle =>
    refine .dropped child fun hm => ?_
    obtain ⟨x, hx, he⟩ := List.mem_map.mp hm
    exact idle x hx he

/-- **What a directive enters in the books.** -/
theorem perform_booked {k : Dialect} (project : Project) (x : Directive k) (d : Desk) :
    Booked d.agent.books d.world.nextNumber ((perform project x).run d).2.agent.books
      ((perform project x).run d).2.world.nextNumber (effectsOf ((perform project x).run d).1) := by
  have h := perform_performed project x d
  generalize ((perform project x).run d : Except AgentError Step × Desk) = out at h ⊢
  cases h with
  | quiet still silent =>
    rw [still.books, still.number, silent]
    exact .nothing
  | wrote own write => exact .nothing
  | created target creation => exact creation_booked creation
  | deleted target deletion => exact deletion_booked deletion
  | @spawned orders d' after r note still notHelper spawning =>
    obtain ⟨k, hb, hn, he⟩ := spawning_books spawning
    have hhelpers : d'.agent.helpers = d.agent.helpers := congrArg Books.helpers still.books
    simp only at hb hn ⊢
    rw [hb, hn, still.books, still.number, hhelpers]
    refine .hired ?_
    cases r with
    | error e => exact Or.inl rfl
    | ok effects =>
      rw [← still.number]
      exact Or.inr (he effects rfl)
  | @handed orders d' note still children =>
    obtain ⟨hb, hn⟩ := handedOut_books orders d'
    rw [hb, hn, still.books, still.number]
    exact .handed children
  | @finished payload idle =>
    have hr : (released { d with agent := d.agent.retire }).agent.books = d.agent.books.retire := by
      rw [released_books]
      rfl
    rw [hr]
    exact .retired (busy?_eq_none idle) rfl rfl
  | @ended payload d' still idle =>
    have hr : d'.agent.retire.books = d.agent.books.retire := by
      rw [← still.books]
      rfl
    simp only at hr ⊢
    rw [hr, still.number]
    exact .retired (busy?_eq_none idle) rfl rfl

/-- The prompt that is left on the queue is no entry. -/
theorem interpret_booked {k : Dialect} (project : Project) (x : Directive k) (d : Desk) :
    Booked d.agent.books d.world.nextNumber (interpret project x d).2.agent.books
      (interpret project x d).2.world.nextNumber (interpret project x d).1 := by
  have h := perform_booked project x d
  unfold interpret
  generalize ((perform project x).run d : Except AgentError Step × Desk) = out at h ⊢
  obtain ⟨outcome, after⟩ := out
  simp only
  cases followUpPrompt? x.verb outcome with
  | none => exact h
  | some prompt => exact h

/-- **What a turn enters in the books,** whatever the reply says. -/
theorem complete_booked (project : Project) (prompt response : String) (d : Desk) :
    Booked d.agent.books d.world.nextNumber (complete project prompt response d).2.agent.books
      (complete project prompt response d).2.world.nextNumber
      (complete project prompt response d).1 := by
  unfold complete
  simp only
  cases Directive.parse d.agent.kind.dialect response with
  | error e => exact .nothing
  | ok x => exact interpret_booked project x { d with agent := { d.agent with
      context := d.agent.context ++ [Exchange.mk prompt response]
      queue := [] } }

/-! ### Children -/

theorem target?_of_coder {k : Dialect} (coder : k = .coder) (x : Directive k) :
    target? x = none := by
  subst coder
  cases x <;> rfl

/-- A directive that neither makes nor removes an entry leaves the children as they are. -/
theorem perform_children {k : Dialect} {x : Directive k} (h : target? x = none) (d : Desk) :
    ((perform project x).run d).2.agent.children = d.agent.children := by
  have hperformed := perform_performed project x d
  generalize ((perform project x).run d : Except AgentError Step × Desk) = out at hperformed ⊢
  cases hperformed with
  | quiet still silent => exact congrArg Books.children still.books
  | wrote own write => rfl
  | created target creation =>
    rw [h] at target
    cases target
  | deleted target deletion =>
    rw [h] at target
    cases target
  | spawned still notHelper spawning =>
    obtain ⟨k, hb, -, -⟩ := spawning_books spawning
    exact (congrArg Books.children hb).trans (congrArg Books.children still.books)
  | @handed orders d' note still children =>
    have hb := (handedOut_books orders d').1
    rw [Books.handAll_eq] at hb
    exact (congrArg Books.children hb).trans (congrArg Books.children still.books)
  | finished idle => exact congrArg Books.children (released_books _)
  | ended still idle => exact congrArg Books.children still.books

theorem interpret_children {k : Dialect} {x : Directive k} (h : target? x = none) (d : Desk) :
    (interpret project x d).2.agent.children = d.agent.children := by
  have hperform : ((perform project x).run d).2.agent.children = d.agent.children :=
    perform_children h d
  unfold interpret
  generalize ((perform project x).run d : Except AgentError Step × Desk) = out at hperform ⊢
  obtain ⟨outcome, after⟩ := out
  simp only
  cases followUpPrompt? x.verb outcome with
  | none => exact hperform
  | some text => exact hperform

/-- Whoever speaks as a coder keeps its children over a turn. -/
theorem complete_children (project : Project) (prompt response : String) {d : Desk}
    (coder : d.agent.kind.dialect = .coder) :
    (complete project prompt response d).2.agent.children = d.agent.children := by
  unfold complete
  simp only
  cases Directive.parse d.agent.kind.dialect response with
  | error e => rfl
  | ok x => exact interpret_children (target?_of_coder coder x) { d with agent := { d.agent with
      context := d.agent.context ++ [Exchange.mk prompt response]
      queue := [] } }

end Arbor.Turn
