import Arbor.Proofs.Encoding
import Arbor.Proofs.Places
import Mathlib.Data.List.Lex
import Mathlib.Data.String.Basic

/-! # Names in the order of their bytes

Strings are compared character by character. Their encodings are in the same order: the first byte
says how many there are, and the bits of a longer character are written from the highest down.

* `lex_encoded`, `bytes_lt_bytes`: the encoding keeps the order.
* `sorted_children`: the entries of a folder are in the order of the bytes of their names.
* `Location.Before`: folders before what is in them, and siblings by the bytes of their names.
* `Location.before_concat_iff`: what comes before an entry of a folder. -/

namespace Arbor

open FileSystem

/-! ### The encoding -/

variable {s t : List UInt8} {x y : Nat}

/-- The first bytes decide, or the others do. -/
theorem lex_byte (hx : x < 256) (hy : y < 256) (h : x < y ∨ x = y ∧ s < t) :
    UInt8.ofNat x :: s < UInt8.ofNat y :: t := by
  rw [List.cons_lt_cons_iff, UInt8.ofNat_lt_iff_lt hx hy]
  exact h.imp id fun ⟨heq, hlt⟩ => ⟨congrArg UInt8.ofNat heq, hlt⟩

/-- Where the first bytes are no greater, they decide or the others do. -/
theorem lex_byte_of_le (hy : y < 256) (hle : x ≤ y) (h : x = y → s < t) :
    UInt8.ofNat x :: s < UInt8.ofNat y :: t := by
  rcases Nat.lt_or_eq_of_le hle with hlt | heq
  · exact lex_byte (by omega) hy (Or.inl hlt)
  · exact lex_byte (by omega) hy (Or.inr ⟨heq, h heq⟩)

/-- **The encoding of a character that comes before another** is smaller, whatever follows. -/
theorem lex_encoded {c d : Char} (h : c < d) (s t : List UInt8) :
    String.utf8EncodeChar c ++ s < String.utf8EncodeChar d ++ t := by
  have hlt : c.val.toNat < d.val.toNat := h
  have hmax : d.val.toNat < 0x110000 := by
    have hvalid := d.valid
    unfold UInt32.isValidChar Nat.isValidChar at hvalid
    omega
  unfold String.utf8EncodeChar
  generalize c.val.toNat = v at hlt
  generalize d.val.toNat = w at hlt hmax
  -- Fewer bytes begin with a smaller one. Encodings of one length are compared digit by digit,
  -- where the digits are those of the numbers to the base 64.
  by_cases one : v ≤ 127
  · simp only [one, if_true, List.cons_append, List.nil_append]
    split_ifs <;> exact lex_byte (by omega) (by omega) (Or.inl (by omega))
  by_cases two : v ≤ 2047
  · simp only [one, two, show ¬ w ≤ 127 by omega, if_true, if_false, List.cons_append,
      List.nil_append]
    split_ifs
    · refine lex_byte_of_le (by omega) (by omega) fun high => ?_
      exact lex_byte (by omega) (by omega) (Or.inl (by omega))
    · exact lex_byte (by omega) (by omega) (Or.inl (by omega))
    · exact lex_byte (by omega) (by omega) (Or.inl (by omega))
  by_cases three : v ≤ 65535
  · simp only [one, two, three, show ¬ w ≤ 127 by omega, show ¬ w ≤ 2047 by omega, if_true,
      if_false, List.cons_append, List.nil_append]
    split_ifs
    · refine lex_byte_of_le (by omega) (by omega) fun high => ?_
      refine lex_byte_of_le (by omega) (by omega) fun middle => ?_
      exact lex_byte (by omega) (by omega) (Or.inl (by omega))
    · exact lex_byte (by omega) (by omega) (Or.inl (by omega))
  · simp only [one, two, three, show ¬ w ≤ 127 by omega, show ¬ w ≤ 2047 by omega,
      show ¬ w ≤ 65535 by omega, if_false, List.cons_append, List.nil_append]
    refine lex_byte_of_le (by omega) (by omega) fun high => ?_
    refine lex_byte_of_le (by omega) (by omega) fun middle => ?_
    refine lex_byte_of_le (by omega) (by omega) fun low => ?_
    exact lex_byte (by omega) (by omega) (Or.inl (by omega))

/-- **Strings are in the order of their bytes.** -/
theorem bytes_lt_bytes {m n : String} (h : m < n) : bytes m < bytes n := by
  rw [bytes_eq, bytes_eq]
  rw [String.lt_iff_toList_lt] at h
  generalize m.toList = cs at h
  generalize n.toList = ds at h
  induction ds generalizing cs with
  | nil => exact absurd h (List.not_lt_nil cs)
  | cons d ds ih =>
    cases cs with
    | nil =>
      obtain ⟨b, rest, hcode⟩ : ∃ b rest, String.utf8EncodeChar d = b :: rest :=
        List.exists_cons_of_ne_nil (by simp)
      rw [List.flatMap_nil, List.flatMap_cons, hcode]
      exact List.nil_lt_cons _ _
    | cons c cs =>
      rw [List.flatMap_cons, List.flatMap_cons]
      rcases List.cons_lt_cons_iff.mp h with hfirst | ⟨rfl, hrest⟩
      · exact lex_encoded hfirst _ _
      · exact List.append_left_lt (ih cs hrest)

/-- **The entries of a folder are in the order of the bytes of their names.** -/
theorem FileSystem.sorted_children {fs : FileSystem} (sound : fs.Sound) (loc : Location) :
    (fs.children loc).Pairwise fun a b => bytes a.1 < bytes b.1 := by
  have hsorted : (fs.children loc).Pairwise fun a b => (!decide (b.1 < a.1)) = true := by
    refine List.pairwise_mergeSort (fun a b c hab hbc => ?_) (fun a b => ?_) _
    · simp only [Bool.not_eq_true', decide_eq_false_iff_not, not_lt] at hab hbc ⊢
      exact le_trans hab hbc
    · simp only [Bool.or_eq_true, Bool.not_eq_true', decide_eq_false_iff_not, not_lt]
      exact le_total a.1 b.1
  have hdistinct := List.pairwise_map.mp (sound.nodup_children loc)
  refine (hsorted.and hdistinct).imp fun {a b} ⟨hle, hne⟩ => bytes_lt_bytes ?_
  rw [Bool.not_eq_true', decide_eq_false_iff_not, not_lt] at hle
  exact lt_of_le_of_ne hle hne

/-! ### The order of a walk -/

namespace Location

variable {a b c loc : Location} {n : String}

/-- **One location comes before another on a walk** that takes each folder before what is in it, and
the entries of a folder by the bytes of their names. -/
def Before (a b : Location) : Prop := a.map bytes < b.map bytes

theorem Before.trans (h : Before a b) (h' : Before b c) : Before a c := List.lt_trans h h'

theorem not_before_self (a : Location) : ¬ Before a a := List.lt_irrefl _

theorem Before.not_before (h : Before a b) : ¬ Before b a := fun h' => not_before_self a (h.trans h')

theorem cons_before_cons {m n : String} :
    Before (m :: a) (n :: b) ↔ bytes m < bytes n ∨ m = n ∧ Before a b := by
  rw [Before, List.map_cons, List.map_cons, List.cons_lt_cons_iff, bytes_inj]
  rfl

theorem nil_before_cons : Before [] (n :: a) := List.nil_lt_cons _ _

theorem not_before_nil : ¬ Before a [] := List.not_lt_nil _

theorem before_append (h : b ≠ []) : Before a (a ++ b) := by
  induction a with
  | nil =>
    obtain ⟨n, rest, rfl⟩ := List.exists_cons_of_ne_nil h
    exact nil_before_cons
  | cons m a ih => exact cons_before_cons.mpr (Or.inr ⟨rfl, ih⟩)

/-- A folder comes before what is in it. -/
theorem before_of_inside (h : a <+: b) : Before a (b ++ [n]) := by
  obtain ⟨rest, rfl⟩ := h
  rw [List.append_assoc]
  exact before_append (by simp)

/-- What is in a folder does not come before it. -/
theorem not_before_of_prefix (h : a <+: b) : ¬ Before b a := by
  obtain ⟨rest, rfl⟩ := h
  by_cases hrest : rest = []
  · rw [hrest, List.append_nil]
    exact not_before_self a
  · exact (before_append hrest).not_before

/-- **What comes before an entry of a folder:** what comes before the folder, the folder, and its
entries of smaller names with what is in them. -/
theorem before_concat_iff : Before a (loc ++ [n]) ↔
    Before a loc ∨ a = loc ∨ ∃ m, bytes m < bytes n ∧ loc ++ [m] <+: a := by
  induction loc generalizing a with
  | nil =>
    cases a with
    | nil => simp [nil_before_cons]
    | cons m a =>
      simp only [List.nil_append, cons_before_cons, not_before_nil, and_false, or_false, false_or,
        reduceCtorEq, List.cons_prefix_cons, List.nil_prefix, and_true]
      exact ⟨fun h => ⟨m, h, rfl⟩, fun ⟨_, h, heq⟩ => heq ▸ h⟩
  | cons k loc ih =>
    cases a with
    | nil => simp [nil_before_cons]
    | cons m a =>
      simp only [List.cons_append, cons_before_cons, ih, List.cons.injEq, List.cons_prefix_cons]
      constructor
      · rintro (hlt | ⟨rfl, hbefore | rfl | ⟨j, hlt, hp⟩⟩)
        · exact Or.inl (Or.inl hlt)
        · exact Or.inl (Or.inr ⟨rfl, hbefore⟩)
        · exact Or.inr (Or.inl ⟨rfl, rfl⟩)
        · exact Or.inr (Or.inr ⟨j, hlt, rfl, hp⟩)
      · rintro ((hlt | ⟨rfl, hbefore⟩) | ⟨rfl, rfl⟩ | ⟨j, hlt, rfl, hp⟩)
        · exact Or.inl hlt
        · exact Or.inr ⟨rfl, Or.inl hbefore⟩
        · exact Or.inr ⟨rfl, Or.inr (Or.inl rfl)⟩
        · exact Or.inr ⟨rfl, Or.inr (Or.inr ⟨j, hlt, hp⟩)⟩

end Location

end Arbor
