import Arbor.Proofs.Directive.Lexing

/-! # Where a text is no sequence of tokens

The scanner has only tokens and blanks behind it wherever it stops, and it stops in two cases: at a
character that starts no token, and at a string that is never closed. What it says then names that
place, as the number of bytes before it.

* `readString_eq_none_iff`: a string is not read if all quotes in it are escaped.
* `tokenize_eq_error_iff`: an error is what the scanner says where it stops.
* `tokenize_error_exact`: which errors there are, where, and that there are no others. -/

namespace Arbor.Directive

open Arbor.Text

variable {offset : Nat} {cs raw front rest : List Char} {c : Char} {ts : List Token}
  {fault : Nat → LexError} {e : LexError}

/-! ### Strings that are never closed -/

/-- A quote behind the characters is escaped: the backslashes right before it are odd in number. -/
def Escaped (raw : List Char) : Prop := Odd (raw.rtakeWhile (· = '\\')).length

/-- **A string is never closed:** every quote behind the opening one is escaped. -/
def NeverClosed (cs : List Char) : Prop := ∀ raw after, cs = raw ++ '"' :: after → Escaped raw

theorem rtakeWhile_append {α : Type} (p : α → Bool) (xs ys : List α) :
    (xs ++ ys).rtakeWhile p =
      if (ys.rtakeWhile p).length = ys.length then xs.rtakeWhile p ++ ys else ys.rtakeWhile p := by
  simp only [List.rtakeWhile, List.reverse_append, List.takeWhile_append, List.length_reverse]
  split
  · rw [List.reverse_append, List.reverse_reverse]
  · rfl

theorem not_escaped_nil : ¬ Escaped [] := by simp [Escaped]

theorem escaped_backslash : Escaped ['\\'] := by simp [Escaped, List.rtakeWhile]

/-- No quote is escaped behind a character that is no backslash, or one that is escaped itself. -/
theorem not_escaped_concat (front : List Char) (c : Char) (h : c = '\\' → Escaped front) :
    ¬ Escaped (front ++ [c]) := by
  unfold Escaped
  rw [List.rtakeWhile_concat]
  split
  · next hc =>
    rw [List.length_append, List.length_singleton, Nat.not_odd_iff_even]
    exact (h (by simpa using hc)).add_one
  · simp

/-- Where backslashes are paired off, those behind are counted from there. -/
theorem escaped_append (paired : ¬ Escaped front) : Escaped (front ++ raw) ↔ Escaped raw := by
  rw [Escaped, Nat.not_odd_iff_even] at paired
  unfold Escaped
  rw [rtakeWhile_append]
  split
  · next hall =>
    rw [hall, List.length_append, Nat.odd_add']
    exact iff_true_right paired
  · rfl

theorem neverClosed_append (unclosed : NeverClosed front) (paired : ¬ Escaped front) :
    NeverClosed (front ++ rest) ↔ NeverClosed rest := by
  constructor
  · rintro h raw after rfl
    exact (escaped_append paired).mp (h (front ++ raw) after (List.append_assoc ..).symm)
  · intro h raw after heq
    rcases List.append_eq_append_iff.mp heq with ⟨more, rfl, hrest⟩ | ⟨more, rfl, hquote⟩
    · exact (escaped_append paired).mpr (h more after hrest)
    · cases more with
      | nil => exact absurd (h [] after hquote.symm) not_escaped_nil
      | cons x more =>
        obtain ⟨rfl, -⟩ := List.cons.inj hquote
        exact unclosed raw more rfl

theorem neverClosed_of_not_mem (h : '"' ∉ cs) : NeverClosed cs := by
  rintro raw after rfl
  exact absurd (by simp) h

theorem neverClosed_pair (c : Char) : NeverClosed ['\\', c] := by
  intro raw after h
  match raw with
  | [] => cases h
  | [x] =>
    cases h
    exact escaped_backslash
  | x :: y :: raw => simp at h

/-- **A string is not read if it is never closed.** -/
theorem readString_eq_none_iff : readString cs = none ↔ NeverClosed cs := by
  fun_induction readString cs with
  | case1 => simp [NeverClosed]
  | case2 rest =>
    exact iff_of_false (by simp) fun h => not_escaped_nil (h [] rest rfl)
  | case3 => exact iff_of_true rfl (neverClosed_of_not_mem (by decide))
  | case4 c rest ih =>
    rw [Option.map_eq_none_iff, ih]
    exact (neverClosed_append (neverClosed_pair c)
      (not_escaped_concat ['\\'] c fun _ => escaped_backslash)).symm
  | case5 c rest noQuote noEnd noEscape ih =>
    rw [Option.map_eq_none_iff, ih]
    have hopen : NeverClosed [c] :=
      neverClosed_of_not_mem fun h => noQuote (List.mem_singleton.mp h).symm
    have hplain : ¬ Escaped [c] :=
      not_escaped_concat [] c fun h => absurd h (ne_backslash noEnd noEscape)
    exact (neverClosed_append hopen hplain).symm

/-! ### Places in a text -/

theorem byteCount_append (cs cs' : List Char) : byteCount (cs ++ cs') = byteCount cs + byteCount cs' := by
  induction cs with
  | nil => simp [byteCount]
  | cons c cs ih => simp only [List.cons_append, byteCount, ih, Nat.add_assoc]

theorem byteCount_toList (s : String) : byteCount s.toList = s.utf8ByteSize := by
  induction s using String.push_induction with
  | empty => rfl
  | push s c ih =>
    rw [String.toList_push, byteCount_append, ih, String.utf8ByteSize_push]
    rfl

theorem parts_iff {text front back : String} :
    text = front ++ String.singleton c ++ back ↔ text.toList = front.toList ++ c :: back.toList := by
  rw [← String.toList_inj]
  simp

theorem exists_string {text : String} {front back : List Char} (h : text.toList = front ++ c :: back) :
    ∃ f b : String, f.toList = front ∧ b.toList = back ∧ text = f ++ String.singleton c ++ b := by
  refine ⟨String.ofList front, String.ofList back, String.toList_ofList, String.toList_ofList, ?_⟩
  rwa [parts_iff, String.toList_ofList, String.toList_ofList]

/-! ### Errors -/

/-- The scanner reads up to a place where it stops, and says how many bytes stand before. -/
theorem tokenize_of_halts (lexes : Lexes front ts) (apart : Apart front rest) (halts : Halts rest fault) :
    tokenize (front ++ rest) = .error (fault (byteCount front)) := by
  rw [tokenize, lexes.scan_append apart, halts.scan, byteCount_append, Nat.add_sub_cancel]
  rfl

/-- **Where an error is:** the scanner has read what stands before, and does not go on from there. -/
theorem tokenize_eq_error_iff : tokenize cs = .error e ↔ ∃ front rest fault,
    cs = front ++ rest ∧ (∃ ts, tokenize front = .ok ts) ∧ Apart front rest ∧ Halts rest fault ∧
      fault (byteCount front) = e := by
  constructor
  · intro h
    obtain ⟨front, rest, ts, rfl, lexes, apart, rfl | ⟨fault, halts⟩⟩ := exists_lexes cs
    · rw [List.append_nil, tokenize_eq_ok_iff.mpr lexes] at h
      cases h
    · rw [tokenize_of_halts lexes apart halts] at h
      exact ⟨front, rest, fault, rfl, ⟨ts, tokenize_eq_ok_iff.mpr lexes⟩, apart, halts,
        Except.error.inj h⟩
  · rintro ⟨front, rest, fault, rfl, ⟨ts, reads⟩, apart, halts, rfl⟩
    exact tokenize_of_halts (tokenize_eq_ok_iff.mp reads) apart halts

/-- The text breaks off at a character, so many bytes from its start: before it stands a sequence of
tokens, and the character neither starts a token nor goes on with a word that ends there. -/
def StraysAt (text : String) (offset : Nat) (c : Char) : Prop :=
  ∃ front back : String, text = front ++ String.singleton c ++ back ∧ front.utf8ByteSize = offset ∧
    (∃ ts, tokenize front.toList = .ok ts) ∧ Apart front.toList [c] ∧ Stray c

/-- The text breaks off at the opening quote of a string that is never closed, so many bytes from its
start, and before it stands a sequence of tokens. -/
def UnclosedAt (text : String) (offset : Nat) : Prop :=
  ∃ front back : String, text = front ++ String.singleton '"' ++ back ∧ front.utf8ByteSize = offset ∧
    (∃ ts, tokenize front.toList = .ok ts) ∧ NeverClosed back.toList

theorem tokenize_eq_unexpectedChar_iff {text : String} :
    tokenize text.toList = .error (.unexpectedChar c offset) ↔ StraysAt text offset c := by
  rw [tokenize_eq_error_iff]
  constructor
  · rintro ⟨_, _, _, htext, reads, apart, ⟨stray⟩ | ⟨-⟩, hfault⟩
    · obtain ⟨front, back, rfl, rfl, rfl⟩ := exists_string htext
      obtain ⟨rfl, rfl⟩ := LexError.unexpectedChar.inj hfault
      exact ⟨front, back, rfl, (byteCount_toList front).symm, reads, apart, stray⟩
    · cases hfault
  · rintro ⟨front, back, htext, rfl, reads, apart, stray⟩
    exact ⟨_, _, _, parts_iff.mp htext, reads, apart, .stray stray, by rw [byteCount_toList]⟩

theorem tokenize_eq_unterminated_iff {text : String} :
    tokenize text.toList = .error (.unterminated offset) ↔ UnclosedAt text offset := by
  rw [tokenize_eq_error_iff]
  constructor
  · rintro ⟨_, _, _, htext, reads, apart, ⟨-⟩ | ⟨noEnd⟩, hfault⟩
    · cases hfault
    · obtain ⟨front, back, rfl, rfl, rfl⟩ := exists_string htext
      obtain rfl := LexError.unterminated.inj hfault
      exact ⟨front, back, rfl, (byteCount_toList front).symm, reads, readString_eq_none_iff.mp noEnd⟩
  · rintro ⟨front, back, htext, rfl, reads, never⟩
    have apart : Apart front.toList ('"' :: back.toList) := fun _ _ _ => endsHere_cons (by decide)
    have halts := Halts.unclosed (readString_eq_none_iff.mpr never)
    exact ⟨_, _, _, parts_iff.mp htext, reads, apart, halts, by rw [byteCount_toList]⟩

/-- **Errors point at the place where a text is no sequence of tokens.** A character is reported
exactly if it stands at that offset, in bytes, behind a sequence of tokens, starts no token itself
and does not go on with a word. A string is reported exactly if its opening quote stands so and it is
never closed. If there is no such place, the text is a sequence of tokens. -/
theorem tokenize_error_exact (text : String) :
    (∀ c offset, tokenize text.toList = .error (.unexpectedChar c offset) ↔ StraysAt text offset c) ∧
    (∀ offset, tokenize text.toList = .error (.unterminated offset) ↔ UnclosedAt text offset) ∧
    ((∃ ts, tokenize text.toList = .ok ts) ↔
      (∀ offset c, ¬ StraysAt text offset c) ∧ ∀ offset, ¬ UnclosedAt text offset) := by
  refine ⟨fun _ _ => tokenize_eq_unexpectedChar_iff, fun _ => tokenize_eq_unterminated_iff, ?_⟩
  simp only [← tokenize_eq_unexpectedChar_iff, ← tokenize_eq_unterminated_iff]
  cases tokenize text.toList with
  | ok ts => simp
  | error e => cases e <;> simp

/-- A letter of two bytes stands before the string that is not closed. -/
example : tokenize "\"é\"=\"x\\\"".toList = .error (.unterminated 5) := by cbv

end Arbor.Directive
