import Mathlib.Data.Set.Card
import Mathlib.Logic.Relation
import Arbor.Proofs.Engine.Lifecycle
import Arbor.Proofs.Engine.Tending

/-! # Releasing a branch

An agent is linked to the agents of its entries and to its helpers. Where these links form a forest, a
release takes exactly one branch of it off the list. It can be done by a loop that follows the links
with a stack of agents and does not look at whom it has met: nobody is below itself, so the loop ends,
and nobody is below two agents, so it meets nobody twice.

* `Forest`: nobody is below two agents, below one twice, or below itself. Links to agents that are gone
  are allowed.
* `Engine.Heads`: an agent that is there is another one, or below it.
* `Forest.mem_branch`: the branch of an agent is what it heads.
* `Engine.Sweeps`, `Engine.Sweeps.perm`: a step of the loop, and that whom it has met and whom it will
  meet are together the same before and after it.
* `Engine.Loses`, `Engine.Prunes`: a branch is gone and nothing else; nor do links lead to it any more.
* `release_exact`: a release is what the loop gives, and loses exactly a branch; a deletion prunes it. -/

namespace Arbor

open Relation

variable {e e' : Engine} {s : Slot} {c d p q x : AgentId}

namespace Engine

/-! ### Links -/

/-- `p` is there and has `c` directly below it. -/
def Links (e : Engine) (p c : AgentId) : Prop := ∃ s, e.listed? p = some s ∧ c ∈ below s.agent

/-- **`x` is there, and it is `c` or below it.** -/
def Heads (e : Engine) (c x : AgentId) : Prop := ReflTransGen e.Links c x ∧ e.listed? x ≠ none

theorem not_heads_of_gone (gone : e.listed? c = none) : ¬ e.Heads c x := by
  rintro ⟨reach, there⟩
  rcases reach.cases_head with rfl | ⟨d, ⟨s, found, -⟩, -⟩
  · exact there gone
  · rw [gone] at found
    cases found

theorem heads_iff (found : e.listed? c = some s) :
    e.Heads c x ↔ x = c ∨ ∃ d ∈ below s.agent, e.Heads d x := by
  constructor
  · rintro ⟨reach, there⟩
    rcases reach.cases_head with rfl | ⟨d, ⟨t, found', link⟩, reach⟩
    · exact Or.inl rfl
    · rw [found] at found'
      cases found'
      exact Or.inr ⟨d, link, reach, there⟩
  · rintro (rfl | ⟨d, link, reach, there⟩)
    · exact ⟨.refl, by simp [found]⟩
    · exact ⟨.head ⟨s, found, link⟩ reach, there⟩

/-- How many agents an agent heads. -/
noncomputable def size (e : Engine) (c : AgentId) : ℕ := {x | e.Heads c x}.ncard

theorem heads_subset (e : Engine) (c : AgentId) :
    {x | e.Heads c x} ⊆ (e.ids.toFinset : Set AgentId) := by
  rintro x ⟨-, there⟩
  obtain ⟨s, found⟩ := Option.ne_none_iff_exists'.mp there
  obtain ⟨hs, hid, -⟩ := mem_of_listed? found
  simpa [ids] using ⟨s, hs, hid⟩

theorem heads_finite (e : Engine) (c : AgentId) : {x | e.Heads c x}.Finite :=
  (Finset.finite_toSet _).subset (e.heads_subset c)

theorem size_le (e : Engine) (c : AgentId) : e.size c ≤ e.slots.length :=
  calc e.size c ≤ (e.ids.toFinset : Set AgentId).ncard :=
        Set.ncard_le_ncard (e.heads_subset c) (Finset.finite_toSet _)
    _ = e.ids.toFinset.card := Set.ncard_coe_finset _
    _ ≤ e.ids.length := List.toFinset_card_le _
    _ = e.slots.length := List.length_map _

end Engine

/-- **The links form a forest.** -/
structure Forest (e : Engine) : Prop where
  /-- Nobody is below two agents. -/
  single : ∀ {p q c}, e.Links p c → e.Links q c → p = q
  /-- Nobody is below an agent twice. -/
  once : ∀ {p s}, e.listed? p = some s → (Engine.below s.agent).Nodup
  /-- Nobody is below itself. -/
  acyclic : ∀ p, ¬ TransGen e.Links p p

/-- `e'` has at most the agents of `e`, with at most the links that they have there. -/
def Engine.Thins (e e' : Engine) : Prop :=
  ∀ p t, e'.listed? p = some t →
    ∃ s, e.listed? p = some s ∧ (Engine.below t.agent).Sublist (Engine.below s.agent)

theorem Engine.Thins.links (thins : e.Thins e') (link : e'.Links p c) : e.Links p c := by
  obtain ⟨t, found, link⟩ := link
  obtain ⟨s, found, hsub⟩ := thins p t found
  exact ⟨s, found, hsub.subset link⟩

namespace Forest

/-- A forest that loses links or agents is one. -/
theorem of_thins (forest : Forest e) (thins : e.Thins e') : Forest e' where
  single hp hq := forest.single (thins.links hp) (thins.links hq)
  once found := by
    obtain ⟨s, found, hsub⟩ := thins _ _ found
    exact (forest.once found).sublist hsub
  acyclic p cycle := by
    have hcycle : TransGen e.Links p p := TransGen.mono (fun _ _ => thins.links) _ _ cycle
    exact forest.acyclic p hcycle

/-- Where agents are numbered from above to below, it is enough that none is below others twice. -/
theorem of_numbers (nodup : (e.agents.flatMap Engine.below).Nodup)
    (down : ∀ a ∈ e.agents, ∀ c ∈ Engine.below a, a.id.number < c.number) : Forest e := by
  have hmem : ∀ {p s}, e.listed? p = some s → s.agent ∈ e.agents ∧ s.agent.id = p := by
    intro p s found
    obtain ⟨hs, hid, hlisted⟩ := Engine.mem_of_listed? found
    exact ⟨Engine.mem_agents.mpr ⟨s, hs, hlisted, rfl⟩, hid⟩
  refine ⟨?_, fun found => (List.nodup_flatMap.mp nodup).1 _ (hmem found).1, fun p cycle => ?_⟩
  · rintro p q c ⟨s, hp, hc⟩ ⟨t, hq, hc'⟩
    obtain ⟨hs, rfl⟩ := hmem hp
    obtain ⟨ht, rfl⟩ := hmem hq
    rw [eq_of_nodup_flatMap nodup hs ht hc hc']
  · have hlt : ∀ {p q}, TransGen e.Links p q → p.number < q.number := by
      intro p q path
      induction path with
      | single link =>
        obtain ⟨s, found, hc⟩ := link
        obtain ⟨hs, rfl⟩ := hmem found
        exact down _ hs _ hc
      | tail path link ih =>
        obtain ⟨s, found, hc⟩ := link
        obtain ⟨hs, rfl⟩ := hmem found
        exact ih.trans (down _ hs _ hc)
    exact Nat.lt_irrefl _ (hlt cycle)

/-! ### The branch of an agent -/

theorem size_pos (found : e.listed? c = some s) : 0 < e.size c :=
  (Set.ncard_pos (e.heads_finite c)).mpr ⟨c, .refl, by simp [found]⟩

/-- Below an agent are fewer than it heads. -/
theorem size_lt (forest : Forest e) (found : e.listed? c = some s)
    (below : d ∈ Engine.below s.agent) : e.size d < e.size c := by
  refine Set.ncard_lt_ncard ⟨fun x hx => (Engine.heads_iff found).mpr (Or.inr ⟨d, below, hx⟩),
    fun hsub => ?_⟩ (e.heads_finite c)
  have hback : e.Heads d c := hsub ⟨.refl, by simp [found]⟩
  exact forest.acyclic c (.head' ⟨s, found, below⟩ hback.1)

/-- **Induction from below:** an agent comes after all that are below it. -/
theorem induct (forest : Forest e) {P : AgentId → Prop}
    (gone : ∀ c, e.listed? c = none → P c)
    (found : ∀ c s, e.listed? c = some s → (∀ d ∈ Engine.below s.agent, P d) → P c) (c : AgentId) :
    P c := by
  induction hsize : e.size c using Nat.strong_induction_on generalizing c with
  | _ n ih =>
    cases hc : e.listed? c with
    | none => exact gone c hc
    | some s => exact found c s hc fun d hd => ih _ (hsize ▸ forest.size_lt hc hd) d rfl

end Forest

theorem Engine.subtree_gone (gone : e.listed? c = none) (levels : ℕ) : e.subtree levels c = [] := by
  cases levels with
  | zero => rfl
  | succ levels => rw [Engine.subtree, gone]

namespace Forest

/-- As many levels as agents are enough. -/
theorem subtree_enough (forest : Forest e) {levels levels' : ℕ} (enough : e.size c ≤ levels)
    (enough' : e.size c ≤ levels') : e.subtree levels c = e.subtree levels' c := by
  induction c using forest.induct generalizing levels levels' with
  | gone c hc => rw [Engine.subtree_gone hc, Engine.subtree_gone hc]
  | found c s hc ih =>
    have hpos := size_pos hc
    obtain ⟨n, rfl⟩ := Nat.exists_eq_succ_of_ne_zero (Nat.ne_zero_of_lt (hpos.trans_le enough))
    obtain ⟨n', rfl⟩ := Nat.exists_eq_succ_of_ne_zero (Nat.ne_zero_of_lt (hpos.trans_le enough'))
    simp only [Engine.subtree, hc, List.cons.injEq, true_and]
    refine List.flatMap_congr fun d hd => ?_
    have hlt := forest.size_lt hc hd
    exact ih d hd (by omega) (by omega)

end Forest

/-- Whom a release takes off the list. -/
def Engine.branch (e : Engine) (c : AgentId) : List AgentId := e.subtree e.slots.length c

theorem Engine.branch_gone (gone : e.listed? c = none) : e.branch c = [] := e.subtree_gone gone _

namespace Forest

theorem branch_found (forest : Forest e) (found : e.listed? c = some s) :
    e.branch c = c :: (Engine.below s.agent).flatMap e.branch := by
  have hle := e.size_le c
  obtain ⟨levels, hlevels⟩ :=
    Nat.exists_eq_succ_of_ne_zero (Nat.ne_zero_of_lt ((size_pos found).trans_le hle))
  rw [Engine.branch, hlevels, Engine.subtree, found]
  refine congrArg (c :: ·) (List.flatMap_congr fun d hd => ?_)
  have hlt := forest.size_lt found hd
  exact forest.subtree_enough (by omega) (e.size_le d)

/-- **The branch of an agent is what it heads.** -/
theorem mem_branch (forest : Forest e) : x ∈ e.branch c ↔ e.Heads c x := by
  induction c using forest.induct with
  | gone c hc => simp [Engine.branch_gone hc, Engine.not_heads_of_gone hc]
  | found c s hc ih =>
    rw [forest.branch_found hc, List.mem_cons, List.mem_flatMap, Engine.heads_iff hc]
    exact or_congr_right (exists_congr fun d => and_congr_right fun hd => ih d hd)

/-- Of two agents below one, neither is below the other. -/
theorem apart (forest : Forest e) {d' : AgentId} (link : e.Links c d) (link' : e.Links c d')
    (reach : ReflTransGen e.Links d d') : d = d' := by
  rcases reach.cases_tail with rfl | ⟨q, reach, last⟩
  · rfl
  · obtain rfl := forest.single last link'
    exact absurd (.head' link reach) (forest.acyclic q)

theorem branch_nodup (forest : Forest e) : (e.branch c).Nodup := by
  induction c using forest.induct with
  | gone c hc => simp [Engine.branch_gone hc]
  | found c s hc ih =>
    rw [forest.branch_found hc, List.nodup_cons]
    have hlink : ∀ {d}, d ∈ Engine.below s.agent → e.Links c d := fun hd => ⟨s, hc, hd⟩
    constructor
    · intro hmem
      obtain ⟨d, hd, hmem⟩ := List.mem_flatMap.mp hmem
      exact forest.acyclic c (.head' (hlink hd) (forest.mem_branch.mp hmem).1)
    · refine List.nodup_flatMap.mpr ⟨ih, (forest.once hc).pairwise_of_forall_ne ?_⟩
      intro d hd d' hd' hne x hx hx'
      have hreach := (forest.mem_branch.mp hx).1
      have hreach' := (forest.mem_branch.mp hx').1
      -- whoever is below both is on the one way up from there
      have hone : Relator.RightUnique (Function.swap e.Links) := fun _ _ _ => forest.single
      rcases ReflTransGen.total_of_right_unique hone hreach.swap hreach'.swap with h | h
      · exact hne (forest.apart (hlink hd') (hlink hd) (reflTransGen_swap.mp h)).symm
      · exact hne (forest.apart (hlink hd) (hlink hd') (reflTransGen_swap.mp h))

end Forest

/-! ### The loop -/

/-- How far the loop is: whom it has yet to look at, the next one last, and whom it has met. -/
structure Sweep where
  pending : List AgentId
  met : List AgentId

/-- **A step of the loop.** In which order it takes those below an agent is left open. -/
inductive Engine.Sweeps (e : Engine) : Sweep → Sweep → Prop
  | gone {rest met : List AgentId} {c : AgentId} (gone : e.listed? c = none) :
      Sweeps e ⟨rest ++ [c], met⟩ ⟨rest, met⟩
  | found {rest met more : List AgentId} {c : AgentId} {s : Slot} (found : e.listed? c = some s)
      (below : more.Perm (below s.agent)) : Sweeps e ⟨rest ++ [c], met⟩ ⟨rest ++ more, met ++ [c]⟩

/-- Whom the loop will meet. -/
def Sweep.ahead (w : Sweep) (e : Engine) : List AgentId := w.pending.flatMap e.branch

namespace Engine.Sweeps

variable {w w' : Sweep} {met : List AgentId}

/-- The loop goes on as long as anybody is pending. -/
theorem next (e : Engine) (w : Sweep) (pending : w.pending ≠ []) : ∃ w', e.Sweeps w w' := by
  obtain ⟨stack, met⟩ := w
  obtain rfl | ⟨rest, c, rfl⟩ := List.eq_nil_or_concat' stack
  · exact absurd rfl pending
  · cases hc : e.listed? c with
    | none => exact ⟨_, .gone hc⟩
    | some s => exact ⟨_, .found hc (.refl _)⟩

/-- Whom the loop has met and whom it will meet are together the same after a step. -/
theorem perm (forest : Forest e) (h : e.Sweeps w w') :
    (w.met ++ w.ahead e).Perm (w'.met ++ w'.ahead e) := by
  cases h with
  | gone gone => simp [Sweep.ahead, branch_gone gone]
  | @found rest met more c s found below =>
    have hmore : (more.flatMap e.branch).Perm ((Engine.below s.agent).flatMap e.branch) :=
      below.flatMap_right _
    simp only [Sweep.ahead, List.flatMap_append, List.flatMap_singleton, forest.branch_found found,
      List.append_assoc, List.singleton_append]
    refine List.Perm.append_left met (List.perm_middle.trans (List.Perm.cons c ?_))
    exact List.Perm.append_left _ hmore.symm

/-- A step meets one of those ahead, or leaves one less to look at. -/
theorem less (forest : Forest e) (h : e.Sweeps w w') :
    Prod.Lex (· < ·) (· < ·) ((w'.ahead e).length, w'.pending.length)
      ((w.ahead e).length, w.pending.length) := by
  have hlength := (h.perm forest).length_eq
  cases h with
  | gone gone =>
    simp only [List.length_append, Nat.add_left_cancel_iff] at hlength
    rw [hlength]
    exact .right _ (by simp)
  | found found below =>
    simp only [List.length_append, List.length_singleton] at hlength
    exact .left _ _ (by omega)

/-- **The loop ends,** whoever is pending. -/
theorem wf (forest : Forest e) : WellFounded fun after before => e.Sweeps before after :=
  Subrelation.wf (fun h => less forest h)
    (InvImage.wf (fun w : Sweep => ((w.ahead e).length, w.pending.length))
      (WellFounded.prod_lex Nat.lt_wfRel.wf Nat.lt_wfRel.wf))

/-- **The loop meets the branches of those pending,** each agent once. -/
theorem ends (forest : Forest e) (h : ReflTransGen e.Sweeps w ⟨[], met⟩) :
    (w.met ++ w.ahead e).Perm met := by
  induction h using ReflTransGen.head_induction_on with
  | refl => simp [Sweep.ahead]
  | head step _ ih => exact (step.perm forest).trans ih

end Engine.Sweeps

/-! ### What is left -/

namespace Engine

theorem listed?_unlist (e : Engine) (ids : List AgentId) (x : AgentId) :
    (e.unlist ids).listed? x = if x ∈ ids then none else e.listed? x := by
  have hsame : ∀ t : Slot,
      (if ids.contains t.id then { t with listed := false } else t).id = t.id := by
    intro t
    split <;> rfl
  rw [listed?, unlist, List.find?_map]
  simp only [Function.comp_def, hsame]
  split
  · next gone =>
    rw [Option.map_eq_none_iff, List.find?_eq_none]
    intro t _ h
    simp only [Bool.and_eq_true, decide_eq_true_eq, List.contains_iff_mem] at h
    simp [h.1, gone] at h
  · next kept =>
    have hfinds : ∀ t : Slot, (decide (t.id = x) &&
        (if ids.contains t.id then { t with listed := false } else t).listed) =
          (decide (t.id = x) && t.listed) := by
      intro t
      by_cases hid : t.id = x
      · simp [hid, kept]
      · simp [hid]
    simp only [hfinds]
    change (e.listed? x).map _ = _
    cases hx : e.listed? x with
    | none => rfl
    | some t => simp [(mem_of_listed? hx).2.1, kept]

/-- Only who is taken off the list matters. -/
theorem unlist_congr {ids ids' : List AgentId} (same : ∀ x, x ∈ ids ↔ x ∈ ids') :
    e.unlist ids = e.unlist ids' := by
  have hcontains : ∀ x, ids.contains x = ids'.contains x := fun x => by
    rw [Bool.eq_iff_iff, List.contains_iff_mem, List.contains_iff_mem, same]
  simp only [unlist, hcontains]

/-- **The engine `e'` has lost the branch of `c`,** and nothing else of it has changed. -/
structure Loses (e : Engine) (c : AgentId) (e' : Engine) : Prop where
  gone : ∀ x, e.Heads c x → e'.listed? x = none
  kept : ∀ x, ¬ e.Heads c x → e'.listed? x = e.listed? x
  agents : ∀ a, a ∈ e'.agents ↔ a ∈ e.agents ∧ ¬ e.Heads c a.id
  /-- Only who is listed has changed. -/
  rest : ∃ ids, e' = e.unlist ids

theorem Loses.found_before (loses : e.Loses c e') (found : e'.listed? p = some s) :
    ¬ e.Heads c p ∧ e.listed? p = some s := by
  have hkept : ¬ e.Heads c p := fun hp => by
    rw [loses.gone p hp] at found
    cases found
  exact ⟨hkept, loses.kept p hkept ▸ found⟩

/-- **Nothing is left of the branch of `c`:** what is left is a forest, and nobody in it is linked to
whoever is gone. -/
structure Prunes (e : Engine) (c : AgentId) (e' : Engine) : Prop extends e.Loses c e' where
  forest : Forest e'
  apart : ∀ q x, e'.Links q x → ¬ e.Heads c x

/-- An agent loses the link of an entry. -/
def unlink (e : Engine) (p : AgentId) (entry : String) : Engine :=
  e.modifyAgent p fun a => { a with children := a.children.drop entry }

theorem listed?_unlink (e : Engine) (p : AgentId) (entry : String) (x : AgentId) :
    (e.unlink p entry).listed? x = (e.listed? x).map fun t => if t.id = p then
      { t with agent := { t.agent with children := t.agent.children.drop entry } } else t :=
  e.listed?_modifySlot (f := fun t =>
    { t with agent := { t.agent with children := t.agent.children.drop entry } })
    (fun _ => rfl) (fun _ => rfl) p x

end Engine

namespace Forest

theorem release_loses (forest : Forest e) (c : AgentId) : e.Loses c (e.release c) where
  gone x hx := (Engine.listed?_unlist e _ x).trans (if_pos (forest.mem_branch.mpr hx))
  kept x hx :=
    (Engine.listed?_unlist e _ x).trans (if_neg fun h => hx (forest.mem_branch.mp h))
  agents a := by
    rw [Engine.release, Engine.agents_unlist, List.mem_filter, Bool.not_eq_true',
      ← Bool.not_eq_true, List.contains_iff_mem]
    exact and_congr_right' (not_congr forest.mem_branch)
  rest := ⟨_, rfl⟩

/-- Where nobody is linked to an agent, nobody that is left is linked to whoever is released with it. -/
theorem release_prunes (forest : Forest e) (top : ∀ q, ¬ e.Links q c) :
    e.Prunes c (e.release c) where
  toLoses := forest.release_loses c
  forest := forest.of_thins fun _ t found =>
    ⟨t, ((forest.release_loses c).found_before found).2, List.Sublist.refl _⟩
  apart q x link := by
    rintro ⟨reach, -⟩
    obtain ⟨t, found, hx⟩ := link
    obtain ⟨hkept, hfound⟩ := (forest.release_loses c).found_before found
    have hlink : e.Links q x := ⟨t, hfound, hx⟩
    rcases reach.cases_tail with rfl | ⟨p, reach, last⟩
    · exact top q hlink
    · obtain rfl := forest.single last hlink
      exact hkept ⟨reach, by simp [hfound]⟩

end Forest

/-! ### What a deletion leaves -/

namespace Engine

variable {entry : String} {link : ChildLink}

theorem thins_unlink (e : Engine) (p : AgentId) (entry : String) : e.Thins (e.unlink p entry) := by
  intro q t found
  rw [listed?_unlink, Option.map_eq_some_iff] at found
  obtain ⟨s, found, rfl⟩ := found
  refine ⟨s, found, ?_⟩
  split
  · exact (List.filter_sublist.map _).append_right _
  · exact List.Sublist.refl _

theorem listed?_unlink_of_ne (other : q ≠ p) : (e.unlink p entry).listed? q = e.listed? q := by
  rw [listed?_unlink]
  cases hq : e.listed? q with
  | none => rfl
  | some t => simp [(mem_of_listed? hq).2.1, other]

/-- What an entry is linked to is below its agent. -/
theorem links_of_entry (found : e.listed? p = some s)
    (child : s.agent.children.get? entry = some link) : e.Links p link.id :=
  ⟨s, found, List.mem_append_left _ (List.mem_map_of_mem (Table.mem_of_get? child))⟩

end Engine

namespace Forest

variable {entry : String} {link : ChildLink}

/-- Nobody is linked to the agent of the entry any more. -/
theorem top_unlink (forest : Forest e) (found : e.listed? p = some s)
    (child : s.agent.children.get? entry = some link) (q : AgentId) :
    ¬ (e.unlink p entry).Links q link.id := by
  intro hlink
  obtain rfl :=
    forest.single ((e.thins_unlink p entry).links hlink) (Engine.links_of_entry found child)
  obtain ⟨t, found', hmem⟩ := hlink
  rw [Engine.listed?_unlink, found, Option.map_some, if_pos (Engine.mem_of_listed? found).2.1]
    at found'
  cases found'
  -- the list of those below has nobody twice, and the link was on it
  obtain ⟨hchildren, -, hapart⟩ := List.nodup_append.mp (forest.once found)
  have hold := Table.mem_of_get? child
  rcases List.mem_append.mp hmem with hmem | hmem
  · obtain ⟨other, hother, hid⟩ := List.mem_map.mp hmem
    obtain ⟨hother, hne⟩ := Table.mem_drop.mp hother
    exact hne (congrArg Prod.fst (List.inj_on_of_nodup_map hchildren hother hold hid))
  · exact hapart _ (List.mem_map_of_mem hold) _ hmem rfl

/-- An agent below heads whom it headed before. -/
theorem heads_unlink (forest : Forest e) (above : e.Links p c) :
    (e.unlink p entry).Heads c x ↔ e.Heads c x := by
  have hreach : ReflTransGen (e.unlink p entry).Links c x ↔ ReflTransGen e.Links c x := by
    refine ⟨ReflTransGen.mono (fun _ _ => (e.thins_unlink p entry).links) _ _, fun reach => ?_⟩
    induction reach with
    | refl => exact .refl
    | @tail q x reach last ih =>
      have hne : q ≠ p := by
        rintro rfl
        exact forest.acyclic q (.head' above reach)
      obtain ⟨s, found, hx⟩ := last
      exact ih.tail ⟨s, (Engine.listed?_unlink_of_ne hne).trans found, hx⟩
  rw [Engine.Heads, Engine.Heads, hreach, Engine.listed?_unlink, Ne, Option.map_eq_none_iff]

end Forest

/-- **A release removes exactly a branch of a forest.** The loop that follows the links ends, goes on as
long as anybody is pending, and meets whom the release takes off the list, each agent once. The engine
loses whoever the agent heads and nothing else. Where nobody is linked to the agent, as after a deletion
took the link of its entry out, a forest is left, and nobody in it is linked to whoever is gone. -/
theorem release_exact (forest : Forest e) (c : AgentId) :
    (WellFounded fun after before => e.Sweeps before after) ∧
    (∀ w, w.pending ≠ [] → ∃ w', e.Sweeps w w') ∧
    (∀ met, ReflTransGen e.Sweeps ⟨[c], []⟩ ⟨[], met⟩ →
      met.Nodup ∧ (∀ x, x ∈ met ↔ e.Heads c x) ∧ e.unlist met = e.release c) ∧
    e.Loses c (e.release c) ∧
    ((∀ q, ¬ e.Links q c) → e.Prunes c (e.release c)) ∧
    ∀ p s entry link, e.listed? p = some s → s.agent.children.get? entry = some link →
      Forest (e.unlink p entry) ∧ (∀ x, (e.unlink p entry).Heads link.id x ↔ e.Heads link.id x) ∧
      (e.unlink p entry).Prunes link.id ((e.unlink p entry).release link.id) := by
  refine ⟨Engine.Sweeps.wf forest, Engine.Sweeps.next e, fun met run => ?_, forest.release_loses c,
    forest.release_prunes, fun p s entry link found child => ?_⟩
  · have hperm : (e.branch c).Perm met := by
      simpa [Sweep.ahead] using Engine.Sweeps.ends forest run
    have hmet : ∀ x, x ∈ met ↔ x ∈ e.branch c := fun x => hperm.mem_iff.symm
    refine ⟨hperm.nodup_iff.mp forest.branch_nodup, fun x => ?_, Engine.unlist_congr hmet⟩
    rw [hmet, forest.mem_branch]
  · have hforest := forest.of_thins (e.thins_unlink p entry)
    have hlink := Engine.links_of_entry found child
    exact ⟨hforest, fun x => forest.heads_unlink hlink,
      hforest.release_prunes (forest.top_unlink found child)⟩

/-! ### A coder with its tester -/

/-- The folder of the shed loses its coder, and the tester goes with it. -/
theorem release_exact_shed : Forest (shedStart.follow shedTester) ∧
    ((shedStart.follow shedTester).unlink ⟨0⟩ "a").Heads ⟨1⟩ ⟨3⟩ ∧
    ((shedStart.follow shedTester).unlink ⟨0⟩ "a").Prunes ⟨1⟩
      (((shedStart.follow shedTester).unlink ⟨0⟩ "a").release ⟨1⟩) ∧
    (((shedStart.follow shedTester).unlink ⟨0⟩ "a").release ⟨1⟩).agents.map Agent.id = [⟨0⟩] := by
  have forest : Forest (shedStart.follow shedTester) :=
    .of_numbers (by decide +kernel) (by decide +kernel)
  have hmanager : ((shedStart.follow shedTester).listed? ⟨0⟩).bind
      (fun s => s.agent.children.get? "a") = some ⟨⟨1⟩, .coder⟩ := by
    decide +kernel
  obtain ⟨s, found, child⟩ := Option.bind_eq_some_iff.mp hmanager
  obtain ⟨-, -, -, -, -, hdeletes⟩ := release_exact forest ⟨1⟩
  obtain ⟨hforest, -, hprunes⟩ := hdeletes ⟨0⟩ s "a" _ found child
  exact ⟨forest, hforest.mem_branch.mp (by decide +kernel), hprunes, by decide +kernel⟩

end Arbor
