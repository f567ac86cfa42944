import Arbor.Agent.History
import Mathlib.Data.List.Basic

/-! # Which earlier turns are shown

The turns are gone through from the newest to the oldest, and the first that goes over the budget
ends the list, so what is shown has no gap. No longer part of the end fits the budget; only the newest
turn is shown in any case.

* `within_prefix`, `size_within_le`, `prefix_within`: a list that is cut where it goes over the budget
  is its longest start that does not.
* `Recent`: what is to be shown of a list of turns.
* `history_recent`: this is what is shown. -/

namespace Arbor

namespace Exchange

variable {budget used : Nat} {texts front : List String} {turns shown other : List Exchange}
  {last : Exchange}

/-! ### The longest start within a budget -/

/-- The bytes of a list of texts one behind the other. -/
def size (texts : List String) : Nat := (String.join texts).utf8ByteSize

@[simp] theorem size_nil : size [] = 0 := by simp [size]

@[simp] theorem size_cons (s : String) (texts : List String) :
    size (s :: texts) = s.utf8ByteSize + size texts := by
  rw [size, String.join_cons, String.utf8ByteSize_append, size]

theorem size_reverse (texts : List String) : size texts.reverse = size texts := by
  induction texts with
  | nil => rfl
  | cons s rest ih =>
    have happend : size (rest.reverse ++ [s]) = size rest.reverse + size [s] := by
      rw [size, String.join_append, String.utf8ByteSize_append, size, size]
    rw [List.reverse_cons, happend, ih, size_cons, size_cons, size_nil]
    omega

theorem within_prefix (budget used : Nat) (texts : List String) :
    within budget used texts <+: texts := by
  fun_induction within budget used texts with
  | case1 => exact List.prefix_rfl
  | case2 => exact List.nil_prefix
  | case3 used s rest fits ih => exact (List.prefix_cons_inj s).mpr ih

/-- What is kept fits the budget. -/
theorem size_within_le (fits : used ≤ budget) (texts : List String) :
    used + size (within budget used texts) ≤ budget := by
  fun_induction within budget used texts with
  | case1 => simpa using fits
  | case2 => simpa using fits
  | case3 used s rest hfits ih =>
    have hrest := ih (Nat.not_lt.mp hfits)
    rw [size_cons]
    omega

/-- **No longer start fits the budget.** -/
theorem prefix_within (start : front <+: texts) (fits : used + size front ≤ budget) :
    front <+: within budget used texts := by
  fun_induction within budget used texts generalizing front with
  | case1 => exact start
  | case2 used s rest large =>
    cases front with
    | nil => exact List.nil_prefix
    | cons t front =>
      obtain ⟨rfl, -⟩ := List.cons_prefix_cons.mp start
      rw [size_cons] at fits
      omega
  | case3 used s rest hfits ih =>
    cases front with
    | nil => exact List.nil_prefix
    | cons t front =>
      obtain ⟨rfl, hfront⟩ := List.cons_prefix_cons.mp start
      rw [size_cons] at fits
      exact (List.prefix_cons_inj t).mpr (ih hfront (by omega))

/-- Nothing is added to what is over the budget already. -/
theorem within_of_lt (large : budget < used) (texts : List String) : within budget used texts = [] := by
  cases texts with
  | nil => rfl
  | cons s rest => exact if_pos (by omega)

/-! ### What is shown -/

/-- The bytes of turns when they are shown. -/
def shownSize (turns : List Exchange) : Nat := size (turns.map text)

/-- **The longest end of a list of turns that fits the budget.** -/
structure LongestEnd (budget : Nat) (turns shown : List Exchange) : Prop where
  ends : shown <:+ turns
  fits : shownSize shown ≤ budget
  longest : ∀ other, other <:+ turns → shownSize other ≤ budget → other <:+ shown

/-- **What is to be shown of a list of turns:** nothing of none; the longest end that fits the budget;
or the last turn alone, if not even that fits. -/
def Recent (budget : Nat) (turns shown : List Exchange) : Prop :=
  match turns.getLast? with
  | none => shown = []
  | some last =>
    if last.text.utf8ByteSize ≤ budget then LongestEnd budget turns shown else shown = [last]

theorem LongestEnd.unique (h : LongestEnd budget turns shown) (h' : LongestEnd budget turns other) :
    shown = other :=
  (h'.longest shown h.ends h.fits).eq_of_length_le (h.longest other h'.ends h'.fits).length_le

theorem Recent.unique (h : Recent budget turns shown) (h' : Recent budget turns other) :
    shown = other := by
  unfold Recent at h h'
  cases hlast : turns.getLast? with
  | none =>
    rw [hlast] at h h'
    exact h.trans h'.symm
  | some last =>
    simp only [hlast] at h h'
    split_ifs at h h'
    · exact h.unique h'
    · exact h.trans h'.symm

/-- Seen from the newest turn, the longest end is the longest start. -/
theorem longestEnd_within (hfront : within budget 0 (turns.reverse.map text) = shown.reverse.map text)
    (hstart : shown.reverse <+: turns.reverse) : LongestEnd budget turns shown where
  ends := List.reverse_prefix.mp hstart
  fits := by
    have hsize := size_within_le (Nat.zero_le budget) (turns.reverse.map text)
    rwa [hfront, List.map_reverse, size_reverse, Nat.zero_add] at hsize
  longest := fun other hends hfits => by
    have hother : other.reverse <+: turns.reverse := List.reverse_prefix.mpr hends
    have hkept : other.reverse.map text <+: shown.reverse.map text := by
      rw [← hfront]
      refine prefix_within (hother.map text) ?_
      rwa [List.map_reverse, size_reverse, Nat.zero_add]
    have hle : other.reverse.length ≤ shown.reverse.length := by simpa using hkept.length_le
    exact List.reverse_prefix.mp (List.prefix_of_prefix_length_le hother hstart hle)

/-- Where the newest turn fits, it is shown for that reason only. -/
theorem newest_of_fits {s : String} (fits : s.utf8ByteSize ≤ budget) (texts : List String) :
    newest budget (s :: texts) = within budget 0 (s :: texts) := by
  rw [newest, within, Nat.zero_add, if_neg (Nat.not_lt.mpr fits)]

theorem newest_of_over {s : String} (large : budget < s.utf8ByteSize) (texts : List String) :
    newest budget (s :: texts) = [s] := by
  rw [newest, within_of_lt large]

/-- **What is to be shown is shown.** -/
theorem exists_recent (budget : Nat) (turns : List Exchange) :
    ∃ shown, Recent budget turns shown ∧ history budget turns = String.join (shown.map text) := by
  rw [history, ← List.map_reverse]
  rcases List.eq_nil_or_concat' turns with rfl | ⟨older, last, rfl⟩
  · exact ⟨[], rfl, rfl⟩
  have hnewest : (older ++ [last]).reverse.map text = last.text :: older.reverse.map text := by simp
  simp only [Recent, List.getLast?_concat]
  by_cases fits : last.text.utf8ByteSize ≤ budget
  · simp only [if_pos fits]
    -- the turns that are kept are a start of the turns, both with the newest first
    have hprefix := within_prefix budget 0 ((older ++ [last]).reverse.map text)
    obtain ⟨front, hfront, hwithin⟩ := List.prefix_map_iff.mp hprefix
    rw [← List.reverse_reverse front] at hfront hwithin
    refine ⟨front.reverse, longestEnd_within hwithin hfront, ?_⟩
    rw [hnewest, newest_of_fits fits, ← hnewest, hwithin, ← List.map_reverse, List.reverse_reverse]
  · simp only [if_neg fits]
    refine ⟨[last], rfl, ?_⟩
    rw [hnewest, newest_of_over (Nat.not_le.mp fits)]
    rfl

/-- **The earlier turns are the longest end that fits.** There is one list of turns that is to be shown,
and the text is made of these turns, in their order and in full. It is over the budget only if it is
that of a single turn. -/
theorem history_recent (budget : Nat) (turns : List Exchange) :
    ∃ shown, (∀ other, Recent budget turns other ↔ other = shown) ∧
      history budget turns = String.join (shown.map text) ∧
      ((history budget turns).utf8ByteSize ≤ budget ∨ ∃ last, shown = [last]) := by
  obtain ⟨shown, hrecent, htext⟩ := exists_recent budget turns
  refine ⟨shown, fun other => ⟨fun h => h.unique hrecent, fun h => h ▸ hrecent⟩, htext, ?_⟩
  rw [htext]
  unfold Recent at hrecent
  cases hlast : turns.getLast? with
  | none =>
    rw [hlast] at hrecent
    subst hrecent
    exact Or.inl (Nat.zero_le budget)
  | some last =>
    simp only [hlast] at hrecent
    split_ifs at hrecent
    · exact Or.inl hrecent.fits
    · exact Or.inr ⟨last, hrecent⟩

/-- Three turns take ninety bytes, so only the last two fit into one less. -/
example :
    history 89 [⟨"first", "one"⟩, ⟨"second", "two"⟩, ⟨"third", "three"⟩] =
      "PROMPT: second\nRESPONSE: two\n\nPROMPT: third\nRESPONSE: three\n\n" := by
  decide +kernel

end Exchange

end Arbor
