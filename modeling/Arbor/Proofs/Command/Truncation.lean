import Arbor.Command.Output
import Mathlib.Data.Nat.Digits.Defs

/-! # Where a text is cut

A budget is given in bytes and may end inside a character. The cut goes back from there to the last
place between two characters, which is the start of the text at the latest. So what is kept is the
longest start that fits, and a folded output always shows how the command ended.

* `placeBack?_last`: the search finds the last place up to an offset.
* `longestStart_sliceTo`: what stands before that place is the longest start that fits.
* `truncate_exact`: what a cut text and a folded output are. -/

namespace Arbor.Command

variable {text front : String} {budget offset : Nat} {place : text.Pos}

/-! ### The search -/

theorem placeAt?_eq_some : placeAt? text offset = some place ↔ place.offset.byteIdx = offset := by
  unfold placeAt?
  constructor
  · intro h
    split at h
    · obtain rfl := Option.some.inj h
      rfl
    · cases h
  · rintro rfl
    exact dif_pos place.isValid

/-- **The search finds the last place** up to an offset. -/
theorem placeBack?_last (h : placeBack? text offset = some place) :
    place.offset.byteIdx ≤ offset ∧
      ∀ other : text.Pos, other.offset.byteIdx ≤ offset → other ≤ place := by
  fun_induction placeBack? text offset with
  | case1 =>
    have hplace := placeAt?_eq_some.mp h
    exact ⟨hplace.le, fun other hother => show other.offset.byteIdx ≤ place.offset.byteIdx by omega⟩
  | case2 offset found hfound =>
    obtain rfl := Option.some.inj h
    have hplace := placeAt?_eq_some.mp hfound
    exact ⟨hplace.le, fun other hother => show other.offset.byteIdx ≤ found.offset.byteIdx by omega⟩
  | case3 offset absent ih =>
    obtain ⟨hle, hlast⟩ := ih h
    refine ⟨Nat.le_succ_of_le hle, fun other hother => hlast other ?_⟩
    -- there is no place at the offset itself
    have hne : other.offset.byteIdx ≠ offset + 1 := fun heq => by
      rw [placeAt?_eq_some.mpr heq] at absent
      cases absent
    omega

theorem placeBack?_eq (text : String) (offset : Nat) :
    placeBack? text offset = some (placeBack text offset) :=
  (Option.some_get _).symm

/-! ### The longest start -/

/-- **The longest start of a text that fits a budget of bytes.** -/
structure LongestStart (budget : Nat) (text front : String) : Prop where
  start : front.toList <+: text.toList
  fits : front.utf8ByteSize ≤ budget
  longest : ∀ other : String, other.toList <+: text.toList → other.utf8ByteSize ≤ budget →
    other.toList <+: front.toList

/-- **What stands before the last place** up to an offset is the longest start that fits. -/
theorem longestStart_sliceTo (text : String) (budget : Nat) :
    LongestStart budget text (text.sliceTo (placeBack text budget)).copy := by
  obtain ⟨hle, hlast⟩ := placeBack?_last (placeBack?_eq text budget)
  have hsplits := (placeBack text budget).splits
  refine ⟨⟨(text.sliceFrom (placeBack text budget)).copy.toList, ?_⟩, ?_, fun other hother hfits => ?_⟩
  · rw [← String.toList_append, ← hsplits.eq_append]
  · exact (congrArg String.Pos.Raw.byteIdx hsplits.offset_eq_rawEndPos).symm.le.trans hle
  · obtain ⟨rest, hrest⟩ := hother
    have happend : text = other ++ String.ofList rest := String.toList_injective (by simp [hrest])
    -- another start that fits ends at a place that is not behind the one that was found
    have hends := String.Pos.splits_ofEqAppend happend
    have hbefore := hlast _ ((congrArg String.Pos.Raw.byteIdx hends.offset_eq_rawEndPos).le.trans hfits)
    obtain ⟨more, hmore, -⟩ := (hends.le_iff_exists_eq_append hsplits).mp hbefore
    exact ⟨more.toList, by rw [hmore, String.toList_append]⟩

theorem truncate_of_le (fits : text.utf8ByteSize ≤ budget) : truncate budget text = text := if_pos fits

theorem truncate_of_lt (large : budget < text.utf8ByteSize) :
    truncate budget text = (text.sliceTo (placeBack text budget)).copy ++ truncationMark :=
  if_neg (Nat.not_le.mpr large)

theorem size_truncate_le (budget : Nat) (text : String) :
    (truncate budget text).utf8ByteSize ≤ budget + truncationMark.utf8ByteSize := by
  rcases Nat.lt_or_ge budget text.utf8ByteSize with large | fits
  · rw [truncate_of_lt large, String.utf8ByteSize_append]
    exact Nat.add_le_add_right (longestStart_sliceTo text budget).fits _
  · rw [truncate_of_le fits]
    omega

/-- A start that fits is kept. -/
theorem prefix_truncate (start : front.toList <+: text.toList) (fits : front.utf8ByteSize ≤ budget) :
    front.toList <+: (truncate budget text).toList := by
  rcases Nat.lt_or_ge budget text.utf8ByteSize with large | hfits
  · rw [truncate_of_lt large, String.toList_append]
    exact ((longestStart_sliceTo text budget).longest front start fits).trans (List.prefix_append _ _)
  · rwa [truncate_of_le hfits]

/-! ### Folded outputs -/

theorem utf8ByteSize_le (s : String) : s.utf8ByteSize ≤ 4 * s.length := by
  induction s using String.push_induction with
  | empty => simp
  | push s c ih =>
    rw [String.utf8ByteSize_push, String.length_push]
    have hc := c.utf8Size_le_four
    omega

/-- A number of 32 bits has ten digits at most. -/
theorem size_toString_le (code : Int32) : (toString code.toInt).utf8ByteSize ≤ 41 := by
  have hdigits : ∀ n : Nat, n ≤ 2 ^ 31 → (Nat.repr n).utf8ByteSize ≤ 40 := fun n hn => by
    have hlength := Nat.repr_length n 10 (by decide) (by omega)
    have hsize := utf8ByteSize_le (Nat.repr n)
    omega
  have hlow := code.le_toInt
  have hhigh := code.toInt_lt
  cases hcode : code.toInt with
  | ofNat n =>
    rw [hcode, Int.ofNat_eq_natCast] at hhigh
    exact (hdigits n (by omega)).trans (by decide)
  | negSucc n =>
    rw [hcode, Int.negSucc_eq] at hlow
    change ("-" ++ Nat.repr (n + 1)).utf8ByteSize ≤ 41
    rw [String.utf8ByteSize_append]
    exact (Nat.add_le_add_left (hdigits (n + 1) (by omega)) _).trans (by decide)

/-- The line that says how a command ended is within the budget. -/
theorem size_exitLine_le (stdout stderr : String) (code : Int32) :
    (Output.mk stdout stderr code.toInt).exitLine.utf8ByteSize ≤ outputBudget := by
  have hnumber := size_toString_le code
  have hbefore : "Exit code: ".utf8ByteSize = 11 := by decide
  have hafter : "\n".utf8ByteSize = 1 := by decide
  simp only [Output.exitLine, outputBudget, String.utf8ByteSize_append]
  omega

/-- **What a cut text and a folded output are.** The search for a place to cut ends, and not behind the
budget. A text that fits is left as it is; of any other the longest start that fits is kept, with the
mark behind it. So a folded output is over the budget by the mark at most and starts with the line that
says how the command ended; if all fits, it is that line and the streams that are not empty. -/
theorem truncate_exact :
    (∀ (text : String) (budget : Nat),
      (∃ place, placeBack? text budget = some place ∧ place.offset.byteIdx ≤ budget) ∧
      (text.utf8ByteSize ≤ budget → truncate budget text = text) ∧
      (budget < text.utf8ByteSize → ∃ front, LongestStart budget text front ∧
        truncate budget text = front ++ truncationMark)) ∧
    ∀ (stdout stderr : String) (code : Int32),
      let o := Output.mk stdout stderr code.toInt
      o.fold.utf8ByteSize ≤ outputBudget + truncationMark.utf8ByteSize ∧
      o.exitLine.toList <+: o.fold.toList ∧
      (o.whole.utf8ByteSize ≤ outputBudget →
        o.fold = o.exitLine ++ streamSection "stdout" stdout ++ streamSection "stderr" stderr) := by
  refine ⟨fun text budget => ⟨⟨_, placeBack?_eq text budget, ?_⟩, truncate_of_le, fun large => ?_⟩,
    fun stdout stderr code => ⟨size_truncate_le _ _, ?_, truncate_of_le⟩⟩
  · exact (placeBack?_last (placeBack?_eq text budget)).1
  · exact ⟨_, longestStart_sliceTo text budget, truncate_of_lt large⟩
  · refine prefix_truncate ?_ (size_exitLine_le stdout stderr code)
    rw [Output.whole, String.append_assoc, String.toList_append]
    exact List.prefix_append _ _

/-- A budget of five bytes ends inside the third of ten letters of two bytes each; a short output is
whole. -/
theorem truncate_exact_letters :
    (5 < "éééééééééé".utf8ByteSize ∧ ∃ front, LongestStart 5 "éééééééééé" front ∧
      truncate 5 "éééééééééé" = front ++ truncationMark) ∧
    (Output.mk "" "oops\n" (-1)).whole.utf8ByteSize ≤ outputBudget ∧
    (Output.mk "" "oops\n" (-1)).fold = "Exit code: -1\n\n--- stderr ---\noops\n" := by
  obtain ⟨cut, folded⟩ := truncate_exact
  have large : 5 < "éééééééééé".utf8ByteSize := by decide
  have fits : (Output.mk "" "oops\n" (-1)).whole.utf8ByteSize ≤ outputBudget := by decide +kernel
  exact ⟨⟨large, (cut "éééééééééé" 5).2.2 large⟩, fits, (folded "" "oops\n" (-1)).2.2 fits⟩

/-- What is kept are the first two letters. -/
example : truncate 5 "éééééééééé" = "éé\n... [output truncated]" := by decide +kernel

end Arbor.Command
