import Arbor.Table
import Mathlib

/-! # What is found in a table

* `Table.get?_put`, `Table.get?_drop`: putting a value under a name and taking a name out change
  what is found under that name, and nothing else.
* `Table.Ordered`: each name stands once, and whatever stands in the table is found. -/

namespace Arbor

/-- Entries that are kept by their name are found as before. -/
theorem lookup_filter {α β : Type} [BEq α] [LawfulBEq α] (f : α → Bool) (table : List (α × β))
    (name : α) :
    (table.filter fun e => f e.1).lookup name = if f name then table.lookup name else none := by
  induction table with
  | nil => simp
  | cons e table ih =>
    obtain ⟨k, entry⟩ := e
    by_cases hk : name = k
    · subst hk
      by_cases hf : f name = true
      · simp [hf]
      · simpa [List.filter_cons, hf] using ih
    · have hb : (name == k) = false := by simpa using hk
      by_cases hf : f k = true
      · simp [hf, List.lookup_cons, hb, ih]
      · simp [hf, List.lookup_cons, hb, ih]

namespace Table

variable {α : Type}

theorem get?_cons (name name' : String) (value : α) (t : Table α) :
    Table.get? ((name, value) :: t) name' = if name' = name then some value else t.get? name' := by
  unfold get?
  by_cases h : name' = name
  · subst h
    simp
  · simp [List.lookup_cons, beq_false_of_ne h, h]

theorem get?_put (t : Table α) (name name' : String) (value : α) :
    (t.put name value).get? name' = if name' = name then some value else t.get? name' := by
  induction t with
  | nil => exact get?_cons name name' value []
  | cons p rest ih =>
    obtain ⟨n, v⟩ := p
    unfold put
    split
    · exact get?_cons name name' value _
    · split
      · next h =>
        rw [get?_cons, get?_cons, h]
        split <;> rfl
      · next h =>
        rw [get?_cons, get?_cons, ih]
        by_cases hn : name' = n
        · rw [if_pos hn, if_pos hn, if_neg fun he => h (he.symm.trans hn)]
        · rw [if_neg hn, if_neg hn]

/-- Values that are changed alike keep their places. -/
theorem map_put {β : Type} (f : α → β) (t : Table α) (name : String) (value : α) :
    ((t.put name value).map fun p => (p.1, f p.2)) =
      Table.put name (f value) (t.map fun p => (p.1, f p.2)) := by
  induction t with
  | nil => rfl
  | cons first rest ih =>
    obtain ⟨n, v⟩ := first
    simp only [put, List.map_cons]
    split
    · rfl
    · split
      · rfl
      · rw [List.map_cons, ih]

theorem get?_drop (t : Table α) (name name' : String) :
    (t.drop name).get? name' = if name' = name then none else t.get? name' := by
  unfold drop get?
  rw [lookup_filter (fun n => n != name)]
  by_cases h : name' = name <;> simp [h]

theorem mem_put {t : Table α} {name : String} {value : α} {p : String × α}
    (h : p ∈ t.put name value) : p = (name, value) ∨ p ∈ t := by
  induction t with
  | nil => exact Or.inl (List.mem_singleton.mp h)
  | cons first rest ih =>
    obtain ⟨n, v⟩ := first
    unfold put at h
    split at h
    · exact List.mem_cons.mp h
    · split at h
      · exact (List.mem_cons.mp h).imp_right (List.mem_cons_of_mem _)
      · rcases List.mem_cons.mp h with rfl | h
        · exact Or.inr List.mem_cons_self
        · exact (ih h).imp_right (List.mem_cons_of_mem _)

theorem mem_put_self (t : Table α) (name : String) (value : α) :
    (name, value) ∈ t.put name value := by
  induction t with
  | nil => exact List.mem_singleton.mpr rfl
  | cons first rest ih =>
    obtain ⟨n, v⟩ := first
    unfold put
    split
    · exact List.mem_cons_self
    · split
      · exact List.mem_cons_self
      · exact List.mem_cons_of_mem _ ih

theorem mem_put_of_mem {t : Table α} {name : String} {p : String × α} (h : p ∈ t)
    (other : p.1 ≠ name) (value : α) : p ∈ t.put name value := by
  induction t with
  | nil => cases h
  | cons first rest ih =>
    obtain ⟨n, v⟩ := first
    unfold put
    split
    · exact List.mem_cons_of_mem _ h
    · split
      · next hn =>
        rcases List.mem_cons.mp h with rfl | h
        · exact absurd hn.symm other
        · exact List.mem_cons_of_mem _ h
      · rcases List.mem_cons.mp h with rfl | h
        · exact List.mem_cons_self
        · exact List.mem_cons_of_mem _ (ih h)

theorem mem_drop {t : Table α} {name : String} {p : String × α} :
    p ∈ t.drop name ↔ p ∈ t ∧ p.1 ≠ name := by
  rw [drop, List.mem_filter, bne_iff_ne]

/-- What is found stands in the table. -/
theorem mem_of_get? {t : Table α} {name : String} {value : α} (h : t.get? name = some value) :
    (name, value) ∈ t := by
  obtain ⟨front, back, hsplit, -⟩ := List.lookup_eq_some_iff.mp h
  rw [hsplit]
  simp

/-- Where no name has two values, what stands in the table is found. -/
theorem get?_eq_some {t : Table α} {name : String} {value : α}
    (single : ∀ value', (name, value') ∈ t → value' = value) :
    t.get? name = some value ↔ (name, value) ∈ t := by
  refine ⟨mem_of_get?, fun h => ?_⟩
  cases hget : t.get? name with
  | none =>
    have hnone := List.lookup_eq_none_iff.mp hget (name, value) h
    simp at hnone
  | some value' => rw [single value' (mem_of_get? hget)]

/-! ### Order -/

/-- The names stand in increasing order, each once. -/
def Ordered (t : Table α) : Prop := t.Pairwise fun x y => x.1 < y.1

theorem ordered_nil : Ordered ([] : Table α) := List.Pairwise.nil

theorem ordered_singleton (x : String × α) : Ordered [x] := List.pairwise_singleton _ x

theorem Ordered.put {t : Table α} (h : t.Ordered) (name : String) (value : α) :
    (t.put name value).Ordered := by
  induction t with
  | nil => exact ordered_singleton _
  | cons first rest ih =>
    obtain ⟨n, v⟩ := first
    obtain ⟨hfirst, hrest⟩ := List.pairwise_cons.mp h
    unfold Table.put
    split
    · next hlt =>
      refine List.pairwise_cons.mpr ⟨fun x hx => ?_, h⟩
      rcases List.mem_cons.mp hx with rfl | hx
      · exact hlt
      · exact String.lt_trans hlt (hfirst x hx)
    · next hle =>
      split
      · next heq =>
        subst heq
        exact List.pairwise_cons.mpr ⟨hfirst, hrest⟩
      · next hne =>
        refine List.pairwise_cons.mpr ⟨fun x hx => ?_, ih hrest⟩
        rcases mem_put hx with rfl | hx
        · exact Std.lt_of_le_of_ne (String.not_lt.mp hle) (Ne.symm hne)
        · exact hfirst x hx

theorem Ordered.drop {t : Table α} (h : t.Ordered) (name : String) : (t.drop name).Ordered :=
  List.Pairwise.filter _ h

/-- A name has one value. -/
theorem Ordered.single {t : Table α} (h : t.Ordered) {name : String} {value value' : α}
    (hv : (name, value) ∈ t) (hv' : (name, value') ∈ t) : value' = value := by
  induction t with
  | nil => cases hv
  | cons first rest ih =>
    obtain ⟨hfirst, hrest⟩ := List.pairwise_cons.mp h
    rcases List.mem_cons.mp hv with rfl | hv <;> rcases List.mem_cons.mp hv' with heq | hv'
    · exact congrArg Prod.snd heq
    · exact absurd (hfirst _ hv') (String.lt_irrefl _)
    · rw [← heq] at hfirst
      exact absurd (hfirst _ hv) (String.lt_irrefl _)
    · exact ih hrest hv hv'

theorem Ordered.get?_iff {t : Table α} (h : t.Ordered) {name : String} {value : α} :
    t.get? name = some value ↔ (name, value) ∈ t :=
  ⟨mem_of_get?, fun hv => (get?_eq_some fun _ hv' => h.single hv hv').mpr hv⟩

end Table

end Arbor
