import Arbor.Command.Output
import Arbor.Proofs.Encoding

/-! # Outputs that are fit to show

What is shown of an output holds no control characters but those of text layout, and no characters
that stand for wrong bytes. Such a text has no control bytes when it is written again, so it is taken
for text and nothing is left out of it.

* `clean_sanitize`: what is shown is clean, also the description of a binary output.
* `looksBinary_of_clean`: a clean text is not taken for a binary output.
* `sanitize_of_not_binary`: of a text that is not, the characters that are fit to show are shown.
* `sanitize_idempotent`: what is shown is shown as it is. -/

namespace Arbor.Command

open Arbor.Text

variable {s t : String} {c : Char} {b : UInt8}

/-! ### Clean texts -/

/-- **A character that is fit to show:** no control character but those of text layout, and not the
one that stands for wrong bytes. -/
def Fit (c : Char) : Prop := (c < ' ' → c = '\n' ∨ c = '\r' ∨ c = '\t') ∧ c ≠ '\uFFFD'

instance : DecidablePred Fit := fun _ => inferInstanceAs (Decidable (_ ∧ _))

/-- All characters of a text are fit to show. -/
def Clean (s : String) : Prop := ∀ c ∈ s.toList, Fit c

instance : DecidablePred Clean := fun s => List.decidableBAll Fit s.toList

theorem isShown_iff : isShown c = true ↔ Fit c := by
  have hlayout : ['\n', '\r', '\t'].all isShown = true := by decide
  constructor
  · intro h
    have hne : c ≠ '\uFFFD' := by
      rintro rfl
      exact absurd h (by decide)
    simp only [isShown, Bool.or_eq_true, Bool.and_eq_true, beq_iff_eq, decide_eq_true_eq] at h
    refine ⟨fun hlt => ?_, hne⟩
    rcases h with hline | ⟨hblank, -⟩
    · exact or_assoc.mp hline
    · exact absurd hlt (Char.not_lt.mpr hblank)
  · rintro ⟨hcontrol, hne⟩
    by_cases hlt : c < ' '
    · exact List.all_eq_true.mp hlayout c (by simpa using hcontrol hlt)
    · simp only [isShown, Bool.or_eq_true, Bool.and_eq_true, bne_iff_ne, decide_eq_true_eq]
      exact Or.inr ⟨Char.not_lt.mp hlt, hne⟩

theorem isShown_eq : isShown = fun c => decide (Fit c) :=
  funext fun _ => Bool.eq_iff_iff.mpr (isShown_iff.trans decide_eq_true_iff.symm)

theorem Clean.append (hs : Clean s) (ht : Clean t) : Clean (s ++ t) := by
  intro c hc
  rw [String.toList_append] at hc
  exact (List.mem_append.mp hc).elim (hs c) (ht c)

/-- Digits are fit to show. -/
theorem clean_repr (n : Nat) : Clean (Nat.repr n) := by
  intro c hc
  rw [Nat.repr, String.toList_ofList] at hc
  have hdigit : c.isDigit = true := Nat.isDigit_of_mem_toDigits (by decide) (by decide) hc
  rw [Char.isDigit, Bool.and_eq_true, decide_eq_true_eq, decide_eq_true_eq] at hdigit
  refine ⟨fun hlt => absurd hlt (Char.not_lt.mpr ?_), ?_⟩
  · exact Char.le_trans (by decide) hdigit.1
  · rintro rfl
    exact absurd hdigit.2 (by decide)

/-- **What is shown is clean,** also the description of a binary output. -/
theorem clean_sanitize (raw : List UInt8) : Clean (sanitize raw) := by
  unfold sanitize
  split
  · have hopen : Clean "[Binary output detected - " := by decide
    have hmiddle : Clean " bytes, " := by decide
    have hclose : Clean "% non-printable]" := by decide
    exact (((hopen.append (clean_repr _)).append hmiddle).append (clean_repr _)).append hclose
  · intro c hc
    rw [String.toList_ofList] at hc
    exact isShown_iff.mp (List.mem_filter.mp hc).2

/-! ### Control bytes -/

/-- The bytes of a character that is fit to show are no control bytes. -/
theorem Fit.not_controlByte (fit : Fit c) (hb : b ∈ String.utf8EncodeChar c) :
    isControlByte b = false := by
  rcases encoded_cases c with ⟨hlt, hone⟩ | hlarge
  · rw [hone, List.mem_singleton] at hb
    have htable : ∀ n < 128, Fit (.ofNat n) → isControlByte (.ofNat n) = false := by decide
    rw [hb]
    exact htable c.toNat hlt (by rwa [Char.ofNat_toNat])
  · have hle : 128 ≤ b.toNat := hlarge b hb
    have hlt : ¬ b < 0x20 := fun hlt => by
      have htoNat : b.toNat < 32 := UInt8.lt_iff_toNat_lt.mp hlt
      omega
    simp [isControlByte, hlt]

/-- **A clean text is not taken for a binary output.** -/
theorem looksBinary_of_clean (clean : Clean s) : looksBinary (bytes s) = false := by
  have hcount : (bytes s).countP isControlByte = 0 := by
    rw [List.countP_eq_zero, bytes_eq]
    intro b hb
    obtain ⟨c, hc, hb⟩ := List.mem_flatMap.mp hb
    rw [(clean c hc).not_controlByte hb]
    exact Bool.false_ne_true
  simp [looksBinary, hcount]

/-! ### What is shown of a text -/

/-- **Of a text that is not taken for a binary output** the characters that are fit to show are shown. -/
theorem sanitize_of_not_binary (h : looksBinary (bytes s) = false) :
    sanitize (bytes s) = String.ofList (s.toList.filter (Fit ·)) := by
  rw [sanitize, h, if_neg Bool.false_ne_true, decode_bytes, isShown_eq]

/-- A clean text is shown as it is. -/
theorem Clean.sanitize_bytes (clean : Clean s) : sanitize (bytes s) = s := by
  rw [sanitize_of_not_binary (looksBinary_of_clean clean),
    List.filter_eq_self.mpr fun c hc => decide_eq_true (clean c hc), String.ofList_toList]

/-- **What is shown is clean, and shown as it is when it is read again.** Of the bytes of a text that is
short, or of which a tenth at most are control bytes, the characters that are fit to show are shown,
so a clean text is shown as it is. -/
theorem sanitize_idempotent :
    (∀ raw, Clean (sanitize raw) ∧ sanitize (bytes (sanitize raw)) = sanitize raw) ∧
    (∀ s, ((bytes s).length ≤ 100 ∨ (bytes s).countP isControlByte ≤ (bytes s).length / 10) →
      sanitize (bytes s) = String.ofList (s.toList.filter (Fit ·))) ∧
    ∀ s, Clean s → sanitize (bytes s) = s := by
  refine ⟨fun raw => ⟨clean_sanitize raw, (clean_sanitize raw).sanitize_bytes⟩, fun s htext => ?_,
    fun s clean => clean.sanitize_bytes⟩
  refine sanitize_of_not_binary ?_
  rw [looksBinary, Bool.and_eq_false_iff, decide_eq_false_iff_not, decide_eq_false_iff_not]
  exact htext.imp Nat.not_lt.mpr Nat.not_lt.mpr

/-- A bell is left out of a short text; a clean text is shown as it is. -/
theorem sanitize_idempotent_bell :
    ((bytes "dé\u0007\tjà").length ≤ 100 ∧ sanitize (bytes "dé\u0007\tjà") = "dé\tjà") ∧
    Clean "dé\tjà" ∧ sanitize (bytes "dé\tjà") = "dé\tjà" := by
  obtain ⟨-, shown, kept⟩ := sanitize_idempotent
  have short : (bytes "dé\u0007\tjà").length ≤ 100 := by decide
  have clean : Clean "dé\tjà" := by decide
  exact ⟨⟨short, (shown _ (Or.inl short)).trans (by decide)⟩, clean, kept _ clean⟩

/-- Of three bytes the last is missing. -/
example : sanitize [0x61, 0xE2, 0x82, 0x62] = "ab" := by cbv

end Arbor.Command
