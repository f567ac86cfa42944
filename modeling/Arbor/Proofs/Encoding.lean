import Arbor.Text.Utf8
import Mathlib.Tactic.SplitIfs

/-! # Texts as bytes

A text is written as the bytes of its characters, one after the other, and what is written is read
back. The first byte of a character says how many follow and in which range the next one lies; from
then on the bits are put together again, the highest first.

* `bytes_eq`: the bytes of a text are those of its characters.
* `encoded_cases`: the bytes below 128 are the characters below 128.
* `decode_encoded`: a character that was written is read, whatever follows.
* `decode_bytes`: a text that was written is read. -/

namespace Arbor

/-- The bytes of a text. -/
def bytes (s : String) : List UInt8 := s.toUTF8.data.toList

theorem bytes_eq (s : String) : bytes s = s.toList.flatMap String.utf8EncodeChar := by
  rw [bytes, String.toUTF8, ← String.utf8Encode_toList, List.utf8Encode, List.toList_data_toByteArray]

theorem bytes_inj {m n : String} : bytes m = bytes n ↔ m = n := by
  rw [bytes, bytes, String.toUTF8, String.toUTF8, Array.toList_inj, ← ByteArray.ext_iff,
    String.toByteArray_inj]

/-- A character is a byte of its own, or none of its bytes is a character on its own. -/
theorem encoded_cases (c : Char) :
    c.toNat < 128 ∧ String.utf8EncodeChar c = [.ofNat c.toNat] ∨
      ∀ b ∈ String.utf8EncodeChar c, 128 ≤ b.toNat := by
  have hvalid := c.valid
  unfold UInt32.isValidChar Nat.isValidChar at hvalid
  unfold String.utf8EncodeChar
  rw [Char.toNat]
  generalize c.val.toNat = v at hvalid
  by_cases one : v ≤ 127
  · exact Or.inl ⟨by omega, if_pos one⟩
  · refine Or.inr ?_
    rw [if_neg one]
    split_ifs <;> simp only [List.forall_mem_cons, List.not_mem_nil, false_implies, implies_true,
      and_true, UInt8.toNat_ofNat'] <;> omega

namespace Text

variable {lead lo hi : UInt8} {n code x : Nat} {rest : List UInt8} {c : Char}

/-! ### First bytes -/

theorem lead_one : ∀ x < 128, continuation? (.ofNat x) = some (0, 0x80, 0xBF) ∧
    leadBits (.ofNat x) = x := by decide

theorem lead_two : ∀ x < 32, 2 ≤ x → continuation? (.ofNat (x + 192)) = some (1, 0x80, 0xBF) ∧
    leadBits (.ofNat (x + 192)) = x := by decide

/-- What comes before the characters of three bytes, and the surrogates, are left out. -/
theorem lead_three : ∀ x < 16, continuation? (.ofNat (x + 224)) =
      some (2, if x = 0 then 0xA0 else 0x80, if x = 13 then 0x9F else 0xBF) ∧
    leadBits (.ofNat (x + 224)) = x := by decide

/-- What comes before the characters of four bytes, and what comes behind them, is left out. -/
theorem lead_four : ∀ x < 5, continuation? (.ofNat (x + 240)) =
      some (3, if x = 0 then 0x90 else 0x80, if x = 4 then 0x8F else 0xBF) ∧
    leadBits (.ofNat (x + 240)) = x := by decide

/-! ### Later bytes -/

theorem readTail_cons (hx : x < 64) (hlo : lo.toNat ≤ x + 128) (hhi : x + 128 ≤ hi.toNat) :
    readTail (n + 1) lo hi code (.ofNat (x + 128) :: rest) =
      readTail n 0x80 0xBF (code * 64 + x) rest := by
  have hbyte : (UInt8.ofNat (x + 128)).toNat = x + 128 :=
    UInt8.toNat_ofNat_of_lt' (show x + 128 < 256 by omega)
  have hin : (decide (lo ≤ .ofNat (x + 128)) && decide (.ofNat (x + 128) ≤ hi)) = true := by
    simp only [UInt8.le_iff_toNat_le, hbyte, hlo, hhi, decide_true, Bool.and_self]
  have hbits : (UInt8.ofNat (x + 128)).toNat % 64 = x := by omega
  rw [readTail, if_pos hin, hbits]

/-- A byte in the range of all later bytes. -/
theorem readTail_inner (hx : x < 64) :
    readTail (n + 1) 0x80 0xBF code (.ofNat (x + 128) :: rest) =
      readTail n 0x80 0xBF (code * 64 + x) rest :=
  readTail_cons hx (Nat.le_add_left 128 x) (by have : (0xBF : UInt8).toNat = 191 := rfl; omega)

theorem decode_cons (tail : List UInt8) (hlead : continuation? lead = some (n, lo, hi))
    (htail : readTail n lo hi (leadBits lead) (tail ++ rest) = (some c, rest)) :
    decode (lead :: (tail ++ rest)) = c :: decode rest := by
  rw [decode]
  simp only [hlead, htail, Option.getD_some]

/-- **A character that was written is read,** whatever follows. -/
theorem decode_encoded (c : Char) (rest : List UInt8) :
    decode (String.utf8EncodeChar c ++ rest) = c :: decode rest := by
  have hvalid := c.valid
  have hback : Char.ofNat c.val.toNat = c := Char.ofNat_toNat c
  unfold UInt32.isValidChar Nat.isValidChar at hvalid
  unfold String.utf8EncodeChar
  generalize c.val.toNat = v at hvalid hback
  by_cases one : v ≤ 127
  · obtain ⟨hlead, hbits⟩ := lead_one v (by omega)
    rw [if_pos one]
    refine decode_cons [] hlead ?_
    rw [List.nil_append, hbits, readTail, hback]
  by_cases two : v ≤ 2047
  · obtain ⟨hlead, hbits⟩ := lead_two (v / 64 % 32) (by omega) (by omega)
    rw [if_neg one, if_pos two]
    refine decode_cons [_] hlead ?_
    rw [List.singleton_append, hbits, readTail_inner (by omega), readTail,
      show v / 64 % 32 * 64 + v % 64 = v by omega, hback]
  by_cases three : v ≤ 65535
  · obtain ⟨hlead, hbits⟩ := lead_three (v / 4096 % 16) (by omega)
    rw [if_neg one, if_neg two, if_pos three]
    refine decode_cons [_, _] hlead ?_
    rw [List.cons_append, List.singleton_append, hbits, readTail_cons (by omega) ?_ ?_,
      readTail_inner (by omega), readTail,
      show (v / 4096 % 16 * 64 + v / 64 % 64) * 64 + v % 64 = v by omega, hback]
    · split_ifs <;> simp only [UInt8.reduceToNat] <;> omega
    · split_ifs <;> simp only [UInt8.reduceToNat] <;> omega
  · obtain ⟨hlead, hbits⟩ := lead_four (v / 262144 % 8) (by omega)
    rw [if_neg one, if_neg two, if_neg three]
    refine decode_cons [_, _, _] hlead ?_
    rw [List.cons_append, List.cons_append, List.singleton_append, hbits,
      readTail_cons (by omega) ?_ ?_, readTail_inner (by omega), readTail_inner (by omega), readTail,
      show ((v / 262144 % 8 * 64 + v / 4096 % 64) * 64 + v / 64 % 64) * 64 + v % 64 = v by omega,
      hback]
    · split_ifs <;> simp only [UInt8.reduceToNat] <;> omega
    · split_ifs <;> simp only [UInt8.reduceToNat] <;> omega

/-- **A text that was written is read.** -/
theorem decode_bytes (s : String) : decode (bytes s) = s.toList := by
  rw [bytes_eq]
  induction s.toList with
  | nil => simp [decode]
  | cons c cs ih => rw [List.flatMap_cons, decode_encoded, ih]

end Text

end Arbor
