import Arbor.Proofs.Places
import Arbor.Proofs.Turn.Scratch
import Arbor.Roster

/-! # Agents that mirror a tree

A set of locations with kinds is *mirrored* by a list of agents if every location has one agent and
every agent a location: its name and its scope are those of the location, its parent is the agent of
the folder above, and its children are the agents of the entries.

* `Manned`: the locations of a project that have an agent.
* `Mirror.add`, `Mirror.prune`: a location is added, or one is taken away with everything below it.
* `Mirror.alike`: two mirrors of the same locations are the same up to the choice of identities. -/

namespace Arbor

open FileSystem

variable {project : Project} {site : Site} {home loc : Location} {k : Kind}

/-! ### The locations that have an agent -/

/-- **The locations that have an agent,** with its kind: the root's, and below a manager's those of
the entries that agents see, but for notes and links. -/
inductive Manned (project : Project) (site : Site) (home : Location) : Location → Kind → Prop where
  | home : Manned project site home home .manager
  | entry {loc : Location} {n : String} {entry : Entry} {k : Kind}
      (above : Manned project site home loc .manager)
      (seen : Project.isSeen site (pathOf (loc ++ [n])) = true)
      (found : site.files.find? (loc ++ [n]) = some entry)
      (kind : Roster.kindOf? project (pathOf (loc ++ [n])) entry = some k) :
      Manned project site home (loc ++ [n]) k

theorem concat_ne_home {n : String} (h : home <+: loc) : loc ++ [n] ≠ home := by
  rintro rfl
  exact Location.not_concat_prefix h List.prefix_rfl

namespace Manned

theorem inside (h : Manned project site home loc k) : home <+: loc := by
  induction h with
  | home => exact List.prefix_rfl
  | entry above seen found kind ih => exact ih.trans (List.prefix_append _ _)

theorem kind_cases (h : Manned project site home loc k) : k = .manager ∨ k = .coder := by
  cases h with
  | home => exact Or.inl rfl
  | entry above seen found kind =>
    unfold Roster.kindOf? at kind
    split at kind
    · exact Or.inl (Option.some.inj kind).symm
    · split at kind
      · cases kind
      · exact Or.inr (Option.some.inj kind).symm
    · cases kind

/-- Which entries of a folder have an agent. -/
theorem concat_iff {n : String} (hin : home <+: loc) :
    Manned project site home (loc ++ [n]) k ↔ Manned project site home loc .manager ∧
      Project.isSeen site (pathOf (loc ++ [n])) = true ∧
      ∃ entry, site.files.find? (loc ++ [n]) = some entry ∧
        Roster.kindOf? project (pathOf (loc ++ [n])) entry = some k := by
  constructor
  · intro h
    generalize hl : loc ++ [n] = l at h
    cases h with
    | home => exact absurd hl (concat_ne_home hin)
    | @entry up m entry k above seen found kind =>
      obtain ⟨rfl, hm⟩ := List.append_inj' hl rfl
      cases hm
      exact ⟨above, seen, entry, found, kind⟩
  · rintro ⟨above, seen, entry, found, kind⟩
    exact .entry above seen found kind

theorem above {n : String} (h : Manned project site home (loc ++ [n]) k)
    (hne : loc ++ [n] ≠ home) : Manned project site home loc .manager := by
  generalize hl : loc ++ [n] = l at h hne
  cases h with
  | home => exact absurd rfl hne
  | @entry up m entry k above seen found kind =>
    obtain ⟨rfl, -⟩ := List.append_inj' hl rfl
    exact above

/-- Where an agent is below an entry, the entry has an agent; below a coder's there is nobody. -/
theorem at_entry {l : Location} {n : String} (h : Manned project site home l k)
    (hin : home <+: loc) (hp : loc ++ [n] <+: l) :
    ∃ k', Manned project site home (loc ++ [n]) k' ∧
      (l = loc ++ [n] ∧ k' = k ∨ k' = .manager ∧ ∃ m, loc ++ [n] ++ [m] <+: l) := by
  induction h with
  | home => exact absurd hp (Location.not_concat_prefix hin)
  | @entry up m entry k above seen found kind ih =>
    rcases List.prefix_concat_iff.mp hp with heq | hp
    · exact ⟨k, heq ▸ .entry above seen found kind, Or.inl ⟨heq.symm, rfl⟩⟩
    · obtain ⟨k', hk', ⟨rfl, rfl⟩ | ⟨rfl, m', hp'⟩⟩ := ih hp
      · exact ⟨.manager, hk', Or.inr ⟨rfl, m, List.prefix_rfl⟩⟩
      · exact ⟨.manager, hk', Or.inr ⟨rfl, m', hp'.trans (List.prefix_append _ _)⟩⟩

theorem unique {k' : Kind} (h : Manned project site home loc k)
    (h' : Manned project site home loc k') : k = k' := by
  cases h with
  | home =>
    generalize hl : home = l at h'
    cases h' with
    | home => rfl
    | @entry up m entry k above seen found kind =>
      exact absurd hl.symm (concat_ne_home (hl ▸ above.inside))
  | @entry up m entry k above seen found kind =>
    obtain ⟨-, -, entry', found', kind'⟩ := (concat_iff above.inside).mp h'
    obtain rfl := Option.some.inj (found.symm.trans found')
    exact Option.some.inj (kind.symm.trans kind')

theorem named (h : Manned project site home loc k) (sound : site.files.Sound)
    (hn : home.Named) : loc.Named := by
  cases h with
  | home => exact hn
  | entry above seen found kind => exact sound.named_of_find? (by rw [found]; simp)

end Manned

/-! ### Mirrors -/

/-- What of an agent is seen in the tree: what it is, and the agents of its entries. -/
def Agent.figure (a : Agent) : Nature × Table ChildLink := (a.nature, a.children)

/-- **The agent is that of a location,** where `who` says which agents are at the others. -/
structure Figure (project : Project) (home : Location) (D : Location → Kind → Prop)
    (who : Location → AgentId) (loc : Location) (k : Kind) (a : Agent) : Prop where
  id : a.id = who loc
  kind : a.kind = k
  name : a.name = project.displayName (pathOf loc)
  scope : a.scope = Roster.scopeOf k (pathOf loc)
  parent : a.parent = if loc = home then none else some (who loc.dropLast)
  children : ∀ n link, (n, link) ∈ a.children ↔
    D (loc ++ [n]) link.kind ∧ link.id = who (loc ++ [n])

/-- **The agents mirror the locations:** each location has one agent and each agent a location. -/
structure Mirror (project : Project) (home : Location) (D : Location → Kind → Prop)
    (who : Location → AgentId) (agents : List Agent) : Prop where
  inside : ∀ loc k, D loc k → home <+: loc
  above : ∀ loc n k, D (loc ++ [n]) k → loc ++ [n] ≠ home → D loc .manager
  unique : ∀ loc k k', D loc k → D loc k' → k = k'
  apart : ∀ loc loc' k k', D loc k → D loc' k' → who loc = who loc' → loc = loc'
  manned : ∀ loc k, D loc k → ∃ a ∈ agents, Figure project home D who loc k a
  placed : ∀ a ∈ agents, ∃ loc k, D loc k ∧ Figure project home D who loc k a

variable {D : Location → Kind → Prop} {who : Location → AgentId} {agents agents' : List Agent}

theorem Figure.congr {a a' : Agent} (h : Figure project home D who loc k a)
    (same : a'.figure = a.figure) : Figure project home D who loc k a' where
  id := (congrArg (fun f => f.1.id) same).trans h.id
  kind := (congrArg (fun f => f.1.kind) same).trans h.kind
  name := (congrArg (fun f => f.1.name) same).trans h.name
  scope := (congrArg (fun f => f.1.scope) same).trans h.scope
  parent := (congrArg (fun f => f.1.parent) same).trans h.parent
  children n link := by
    rw [show a'.children = a.children from congrArg Prod.snd same]
    exact h.children n link

namespace Mirror

/-- What is not seen in the tree does not matter. -/
theorem congr (h : Mirror project home D who agents)
    (same : agents'.map Agent.figure = agents.map Agent.figure) :
    Mirror project home D who agents' where
  inside := h.inside
  above := h.above
  unique := h.unique
  apart := h.apart
  manned loc k hd := by
    obtain ⟨a, ha, hfigure⟩ := h.manned loc k hd
    have hm : a.figure ∈ agents'.map Agent.figure := same ▸ List.mem_map_of_mem ha
    obtain ⟨a', ha', heq⟩ := List.mem_map.mp hm
    exact ⟨a', ha', hfigure.congr heq⟩
  placed a' ha' := by
    have hm : a'.figure ∈ agents.map Agent.figure := same ▸ List.mem_map_of_mem ha'
    obtain ⟨a, ha, heq⟩ := List.mem_map.mp hm
    obtain ⟨loc, k, hd, hfigure⟩ := h.placed a ha
    exact ⟨loc, k, hd, hfigure.congr heq.symm⟩

theorem of_iff {D' : Location → Kind → Prop} (h : Mirror project home D who agents)
    (same : ∀ loc k, D' loc k ↔ D loc k) : Mirror project home D' who agents := by
  obtain rfl : D' = D := by
    funext loc k
    exact propext (same loc k)
  exact h

/-- Whatever is above an agent in the tree has an agent. -/
theorem up {more : Location} (h : Mirror project home D who agents) (hd : D (loc ++ more) k)
    (hin : home <+: loc) : ∃ k', D loc k' := by
  induction more using List.reverseRecOn generalizing k with
  | nil => exact ⟨k, by rwa [List.append_nil] at hd⟩
  | append_singleton more n ih =>
    rw [← List.append_assoc] at hd
    refine ih (h.above _ n k hd fun heq => ?_)
    exact concat_ne_home (hin.trans (List.prefix_append _ _)) heq

/-- No way down is longer than the list. -/
theorem depth {l : Location} (h : Mirror project home D who agents) (hd : D l k)
    (hin : home <+: loc) (hp : loc <+: l) : l.length < loc.length + agents.length := by
  have hlen := hp.length_le
  have hway : ∀ i, ∃ k', D (l.take (loc.length + i)) k' := by
    intro i
    rw [← List.take_append_drop (loc.length + i) l] at hd
    refine h.up hd (hin.trans (List.prefix_take_iff.mpr ⟨hp, Nat.le_add_right _ _⟩))
  have hsub : (List.range (l.length - loc.length + 1)).map
      (fun i => who (l.take (loc.length + i))) ⊆ agents.map Agent.id := by
    intro id hid
    obtain ⟨i, -, rfl⟩ := List.mem_map.mp hid
    obtain ⟨k', hk'⟩ := hway i
    obtain ⟨a, ha, hf⟩ := h.manned _ k' hk'
    exact List.mem_map.mpr ⟨a, ha, hf.id⟩
  have hnodup : ((List.range (l.length - loc.length + 1)).map
      fun i => who (l.take (loc.length + i))).Nodup := by
    refine List.Nodup.map_on (fun i hi j hj heq => ?_) List.nodup_range
    obtain ⟨k₁, h₁⟩ := hway i
    obtain ⟨k₂, h₂⟩ := hway j
    have hsame := congrArg List.length (h.apart _ _ _ _ h₁ h₂ heq)
    simp only [List.length_take] at hsame
    have := List.mem_range.mp hi
    have := List.mem_range.mp hj
    omega
  have hle := (hnodup.subperm hsub).length_le
  simp only [List.length_map, List.length_range] at hle
  omega

/-! ### Adding a location -/

/-- The locations with one more. -/
def Added (D : Location → Kind → Prop) (place : Location) (k : Kind) : Location → Kind → Prop :=
  fun loc k' => D loc k' ∨ loc = place ∧ k' = k

section Add

variable {n : String} {id : AgentId} {now : Nat}

/-- An agent that was there, with the new one linked to it if it is the one above. -/
theorem figure_linked {l : Location} {k' : Kind} {a : Agent}
    (h : Mirror project home D who agents) (above : D loc .manager)
    (free : ∀ more k', ¬ D (loc ++ n :: more) k') (hl : D l k')
    (hf : Figure project home D who l k' a) :
    Figure project home (Added D (loc ++ [n]) k) (Function.update who (loc ++ [n]) id) l k'
      (if a.id = who loc then { a with children := a.children.put n ⟨id, k⟩ } else a) := by
  have hnew : ∀ k', ¬ D (loc ++ [n]) k' := fun k' => free [] k'
  have hwho : ∀ {l k'}, D l k' → Function.update who (loc ++ [n]) id l = who l := by
    intro l k' hd
    refine Function.update_of_ne ?_ _ _
    rintro rfl
    exact hnew k' hd
  have hparent : a.parent = if l = home then none
      else some (Function.update who (loc ++ [n]) id l.dropLast) := by
    rw [hf.parent]
    split
    · rfl
    · next hne =>
      rcases List.eq_nil_or_concat' l with rfl | ⟨up, m, rfl⟩
      · exact absurd (List.prefix_nil.mp (h.inside _ _ hl)).symm hne
      · rw [List.dropLast_concat, hwho (h.above up m k' hl hne)]
  by_cases hat : a.id = who loc
  · obtain rfl : l = loc := h.apart _ _ _ _ hl above (hf.id.symm.trans hat)
    rw [if_pos hat]
    refine ⟨hf.id.trans (hwho hl).symm, hf.kind, hf.name, hf.scope, hparent, fun m link => ?_⟩
    by_cases hm : m = n
    · subst hm
      have hmem : (m, link) ∈ a.children.put m ⟨id, k⟩ ↔ link = ⟨id, k⟩ := by
        constructor
        · intro h
          rcases Table.mem_put h with heq | h
          · exact (Prod.mk.inj heq).2
          · exact absurd ((hf.children m link).mp h).1 (hnew _)
        · rintro rfl
          exact Table.mem_put_self ..
      rw [hmem]
      simp only [Added, Function.update_self, hnew, true_and, false_or]
      exact ⟨fun heq => by rw [heq]; exact ⟨rfl, rfl⟩, fun ⟨hk, hid⟩ => by
        cases link
        cases hk
        cases hid
        rfl⟩
    · have hne : l ++ [m] ≠ l ++ [n] := by simpa using hm
      have hmem : (m, link) ∈ a.children.put n ⟨id, k⟩ ↔ (m, link) ∈ a.children := by
        refine ⟨fun h => ?_, fun h => Table.mem_put_of_mem h hm _⟩
        rcases Table.mem_put h with heq | h
        · exact absurd (Prod.mk.inj heq).1 hm
        · exact h
      rw [hmem, hf.children, Added, Function.update_of_ne hne]
      simp [hm]
  · have hne : l ≠ loc := fun heq => hat (heq ▸ hf.id)
    rw [if_neg hat]
    refine ⟨hf.id.trans (hwho hl).symm, hf.kind, hf.name, hf.scope, hparent, fun m link => ?_⟩
    have hne' : l ++ [m] ≠ loc ++ [n] := fun heq => hne (List.append_inj' heq rfl).1
    rw [hf.children, Added, Function.update_of_ne hne']
    simp [hne']

theorem figure_fresh (h : Mirror project home D who agents) (above : D loc .manager)
    (free : ∀ more k', ¬ D (loc ++ n :: more) k') :
    Figure project home (Added D (loc ++ [n]) k) (Function.update who (loc ++ [n]) id) (loc ++ [n]) k
      (Agent.fresh id k (project.displayName (pathOf (loc ++ [n])))
        (Roster.scopeOf k (pathOf (loc ++ [n]))) (some (who loc)) now) where
  id := by
    rw [Function.update_self]
    rfl
  kind := rfl
  name := rfl
  scope := rfl
  parent := by
    have hne : loc ≠ loc ++ [n] := by simp
    rw [if_neg (concat_ne_home (h.inside _ _ above)), List.dropLast_concat,
      Function.update_of_ne hne]
    rfl
  children m link := by
    have hbelow : ¬ D (loc ++ [n] ++ [m]) link.kind := by
      rw [List.append_assoc]
      exact free [m] _
    have hne : loc ++ [n] ++ [m] ≠ loc ++ [n] := by simp
    simp only [Added, hbelow, hne, false_and, or_self, iff_false]
    simp [Agent.fresh]

/-- **A location is added:** its agent is linked to the one above, and has no children yet. -/
theorem add (h : Mirror project home D who agents) (above : D loc .manager)
    (free : ∀ more k', ¬ D (loc ++ n :: more) k') (unused : ∀ l k', D l k' → who l ≠ id)
    (now : Nat) :
    Mirror project home (Added D (loc ++ [n]) k) (Function.update who (loc ++ [n]) id)
      (Roster.link (who loc) n ⟨id, k⟩ agents ++
        [Agent.fresh id k (project.displayName (pathOf (loc ++ [n])))
          (Roster.scopeOf k (pathOf (loc ++ [n]))) (some (who loc)) now]) := by
  have hnew : ∀ k', ¬ D (loc ++ [n]) k' := fun k' => free [] k'
  have hwho : ∀ {l k'}, D l k' → Function.update who (loc ++ [n]) id l = who l := by
    intro l k' hd
    refine Function.update_of_ne ?_ _ _
    rintro rfl
    exact hnew k' hd
  constructor
  case inside =>
    rintro l k' (hd | ⟨rfl, -⟩)
    · exact h.inside l k' hd
    · exact (h.inside _ _ above).trans (List.prefix_append _ _)
  case above =>
    rintro l m k' (hd | ⟨heq, -⟩) hne
    · exact Or.inl (h.above l m k' hd hne)
    · obtain ⟨rfl, -⟩ := List.append_inj' heq rfl
      exact Or.inl above
  case unique =>
    rintro l k₁ k₂ (h₁ | ⟨rfl, rfl⟩) (h₂ | ⟨he, rfl⟩)
    · exact h.unique l k₁ k₂ h₁ h₂
    · exact absurd h₁ (he ▸ hnew k₁)
    · exact absurd h₂ (hnew k₂)
    · rfl
  case apart =>
    rintro l l' k₁ k₂ (h₁ | ⟨rfl, rfl⟩) (h₂ | ⟨rfl, rfl⟩) heq
    · rw [hwho h₁, hwho h₂] at heq
      exact h.apart _ _ _ _ h₁ h₂ heq
    · rw [hwho h₁, Function.update_self] at heq
      exact absurd heq (unused _ _ h₁)
    · rw [hwho h₂, Function.update_self] at heq
      exact absurd heq.symm (unused _ _ h₂)
    · rfl
  case manned =>
    rintro l k' (hd | ⟨rfl, rfl⟩)
    · obtain ⟨a, ha, hf⟩ := h.manned l k' hd
      exact ⟨_, List.mem_append_left _ (List.mem_map_of_mem ha), h.figure_linked above free hd hf⟩
    · exact ⟨_, List.mem_append_right _ (List.mem_singleton.mpr rfl), h.figure_fresh above free⟩
  case placed =>
    intro a' ha'
    rcases List.mem_append.mp ha' with ha' | ha'
    · obtain ⟨a, ha, rfl⟩ := List.mem_map.mp ha'
      obtain ⟨l, k', hd, hf⟩ := h.placed a ha
      exact ⟨l, k', Or.inl hd, h.figure_linked above free hd hf⟩
    · rw [List.mem_singleton.mp ha']
      exact ⟨loc ++ [n], k, Or.inr ⟨rfl, rfl⟩, h.figure_fresh above free⟩

end Add

/-! ### Taking a location away -/

/-- The locations without one and what is below it. -/
def Pruned (D : Location → Kind → Prop) (place : Location) : Location → Kind → Prop :=
  fun loc k => D loc k ∧ ¬ place <+: loc

section Prune

variable {n : String} {gone : AgentId → Bool}

/-- An agent that stays, with the one of the location taken off its children. -/
theorem figure_dropped {l : Location} {k' : Kind} {a : Agent}
    (h : Mirror project home D who agents) (above : D loc .manager)
    (hl : Pruned D (loc ++ [n]) l k') (hf : Figure project home D who l k' a) :
    Figure project home (Pruned D (loc ++ [n])) who l k'
      (if a.id = who loc then { a with children := a.children.drop n } else a) := by
  by_cases hat : a.id = who loc
  · obtain rfl : l = loc := h.apart _ _ _ _ hl.1 above (hf.id.symm.trans hat)
    rw [if_pos hat]
    refine ⟨hf.id, hf.kind, hf.name, hf.scope, hf.parent, fun m link => ?_⟩
    simp only [Table.mem_drop]
    by_cases hm : m = n
    · subst hm
      simp [Pruned]
    · have hout : ¬ l ++ [n] <+: l ++ [m] := by
        rw [List.prefix_append_right_inj]
        simpa using Ne.symm hm
      rw [hf.children, Pruned]
      simp [hout, hm]
  · have hne : l ≠ loc := fun heq => hat (heq ▸ hf.id)
    rw [if_neg hat]
    refine ⟨hf.id, hf.kind, hf.name, hf.scope, hf.parent, fun m link => ?_⟩
    have hout : ¬ loc ++ [n] <+: l ++ [m] := by
      intro hp
      rcases List.prefix_concat_iff.mp hp with heq | hp
      · exact hne (List.append_inj' heq rfl).1.symm
      · exact hl.2 hp
    rw [hf.children, Pruned]
    simp [hout]

/-- **A location is taken away with everything below it.** -/
theorem prune (h : Mirror project home D who agents) (above : D loc .manager)
    (below : ∀ l k', D l k' → (gone (who l) = true ↔ loc ++ [n] <+: l)) :
    Mirror project home (Pruned D (loc ++ [n])) who
      ((agents.map fun a => if a.id = who loc then { a with children := a.children.drop n } else a
        ).filter fun a => !gone a.id) := by
  have hid : ∀ a : Agent, (if a.id = who loc then { a with children := a.children.drop n }
      else a).id = a.id := by
    intro a
    split <;> rfl
  constructor
  case inside => exact fun l k' hd => h.inside l k' hd.1
  case above =>
    intro l m k' hd hne
    exact ⟨h.above l m k' hd.1 hne, fun hp => hd.2 (hp.trans (List.prefix_append l [m]))⟩
  case unique => exact fun l k₁ k₂ h₁ h₂ => h.unique l k₁ k₂ h₁.1 h₂.1
  case apart => exact fun l l' k₁ k₂ h₁ h₂ => h.apart l l' k₁ k₂ h₁.1 h₂.1
  case manned =>
    intro l k' hd
    obtain ⟨a, ha, hf⟩ := h.manned l k' hd.1
    refine ⟨_, List.mem_filter.mpr ⟨List.mem_map_of_mem ha, ?_⟩, h.figure_dropped above hd hf⟩
    rw [hid, hf.id, Bool.not_eq_true']
    exact Bool.eq_false_iff.mpr fun hgone => hd.2 ((below l k' hd.1).mp hgone)
  case placed =>
    intro a' ha'
    obtain ⟨hm, hstays⟩ := List.mem_filter.mp ha'
    obtain ⟨a, ha, rfl⟩ := List.mem_map.mp hm
    obtain ⟨l, k', hd, hf⟩ := h.placed a ha
    rw [hid, hf.id, Bool.not_eq_true'] at hstays
    have hpruned : Pruned D (loc ++ [n]) l k' :=
      ⟨hd, fun hp => Bool.eq_false_iff.mp hstays ((below l k' hd).mpr hp)⟩
    exact ⟨l, k', hpruned, h.figure_dropped above hpruned hf⟩

end Prune

end Mirror

/-! ### The same agents up to the choice of identities -/

/-- What an agent shows in the tree if identities are exchanged. -/
structure Agent.Counterpart (f : AgentId → AgentId) (a b : Agent) : Prop where
  id : b.id = f a.id
  kind : b.kind = a.kind
  name : b.name = a.name
  scope : b.scope = a.scope
  parent : b.parent = a.parent.map f
  children : ∀ n, b.children.get? n = (a.children.get? n).map fun link => ⟨f link.id, link.kind⟩

/-- **The agents are the same up to the choice of identities.** -/
structure Alike (f : AgentId → AgentId) (agents agents' : List Agent) : Prop where
  forth : ∀ a ∈ agents, ∃ b ∈ agents', a.Counterpart f b
  back : ∀ b ∈ agents', ∃ a ∈ agents, a.Counterpart f b
  injective : ∀ a ∈ agents, ∀ a' ∈ agents, f a.id = f a'.id → a.id = a'.id

/-- The agent of an entry, where no location has two kinds of agents. -/
theorem Figure.get?_iff {a : Agent} (h : Figure project home D who loc k a)
    (unique : ∀ l k₁ k₂, D l k₁ → D l k₂ → k₁ = k₂) (n : String) (link : ChildLink) :
    a.children.get? n = some link ↔ D (loc ++ [n]) link.kind ∧ link.id = who (loc ++ [n]) := by
  rw [← h.children]
  constructor
  · exact Table.mem_of_get?
  · intro hm
    obtain ⟨hd, hid⟩ := (h.children n link).mp hm
    refine (Table.get?_eq_some fun link' hm' => ?_).mpr hm
    obtain ⟨hd', hid'⟩ := (h.children n link').mp hm'
    cases link
    cases link'
    cases hid.trans hid'.symm
    cases unique _ _ _ hd hd'
    rfl

theorem Figure.counterpart {who' : Location → AgentId} {f : AgentId → AgentId} {a b : Agent}
    (exchange : ∀ l k', D l k' → f (who l) = who' l) (inside : ∀ l k', D l k' → home <+: l)
    (above : ∀ l n k', D (l ++ [n]) k' → l ++ [n] ≠ home → D l .manager)
    (unique : ∀ l k₁ k₂, D l k₁ → D l k₂ → k₁ = k₂) (hd : D loc k)
    (ha : Figure project home D who loc k a) (hb : Figure project home D who' loc k b) :
    a.Counterpart f b where
  id := by rw [hb.id, ha.id, exchange loc k hd]
  kind := hb.kind.trans ha.kind.symm
  name := hb.name.trans ha.name.symm
  scope := hb.scope.trans ha.scope.symm
  parent := by
    rw [hb.parent, ha.parent]
    split
    · rfl
    · next hne =>
      rcases List.eq_nil_or_concat' loc with rfl | ⟨up, m, rfl⟩
      · exact absurd (List.prefix_nil.mp (inside _ _ hd)).symm hne
      · rw [List.dropLast_concat, Option.map_some, exchange up _ (above up m k hd hne)]
  children n := by
    refine Option.ext fun link => ?_
    rw [hb.get?_iff unique, Option.map_eq_some_iff]
    constructor
    · rintro ⟨hl, hid⟩
      refine ⟨⟨who (loc ++ [n]), link.kind⟩, (ha.get?_iff unique n _).mpr ⟨hl, rfl⟩, ?_⟩
      rw [exchange _ _ hl, ← hid]
    · rintro ⟨link', hl', rfl⟩
      obtain ⟨hl, hid⟩ := (ha.get?_iff unique n link').mp hl'
      exact ⟨hl, by rw [hid, exchange _ _ hl]⟩

/-- **Two mirrors of the same locations are alike.** -/
theorem Mirror.alike {who' : Location → AgentId} (h : Mirror project home D who agents)
    (h' : Mirror project home D who' agents') : ∃ f, Alike f agents agents' := by
  classical
  -- who stands at the location of an agent in the other mirror
  let f : AgentId → AgentId := fun id =>
    if hloc : ∃ l k', D l k' ∧ who l = id then who' hloc.choose else id
  have exchange : ∀ l k', D l k' → f (who l) = who' l := by
    intro l k' hd
    have hloc : ∃ l' k'', D l' k'' ∧ who l' = who l := ⟨l, k', hd, rfl⟩
    have hf : f (who l) = who' hloc.choose := dif_pos hloc
    obtain ⟨k'', hd', heq⟩ := hloc.choose_spec
    rw [hf, h.apart _ _ _ _ hd' hd heq]
  refine ⟨f, ?forth, ?back, ?injective⟩
  case forth =>
    intro a ha
    obtain ⟨l, k', hd, hfa⟩ := h.placed a ha
    obtain ⟨b, hb, hfb⟩ := h'.manned l k' hd
    exact ⟨b, hb, hfa.counterpart exchange h.inside h.above h.unique hd hfb⟩
  case back =>
    intro b hb
    obtain ⟨l, k', hd, hfb⟩ := h'.placed b hb
    obtain ⟨a, ha, hfa⟩ := h.manned l k' hd
    exact ⟨a, ha, hfa.counterpart exchange h.inside h.above h.unique hd hfb⟩
  case injective =>
    intro a ha a' ha' heq
    obtain ⟨l, k₁, hd, hfa⟩ := h.placed a ha
    obtain ⟨l', k₂, hd', hfa'⟩ := h.placed a' ha'
    rw [hfa.id, hfa'.id, exchange l k₁ hd, exchange l' k₂ hd'] at heq
    rw [hfa.id, hfa'.id, h'.apart _ _ _ _ hd hd' heq]

end Arbor
