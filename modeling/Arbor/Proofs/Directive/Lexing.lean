import Arbor.Directive.Token
import Arbor.Proofs.Outcome
import Mathlib

/-! # What written tokens read back as

A piece of text *spells* tokens if, in front of every rest that does not go on with a word, the
scanner reads exactly those tokens and then the rest. Words, equals signs and quoted strings spell
what they look like (`spells_word`, `spells_equals`, `spells_quoted`), and pieces are put together
by `Spells.append` and, with a space between any two of them, by `Spells.append_spaced`.

* `readString_of_decodes`: a string is read as what the characters between its quotes stand for.
* `decodes_escaped`: a string that was escaped stands for what it was, whatever it holds.
* `Decodes.backslash`: a quote inside a string stands behind a backslash.
* `Lexes`: the ways to cut a text into tokens, which `Lexes.scan_append` reads before a rest.
* `exists_lexes`: every text is cut into tokens up to its end or up to a place where the scanner stops.
* `scan_eq_ok_iff`: what the scanner gives are the tokens that the text is cut into.
* `upper_of_scan`: every word that the scanner gives is in upper case. -/

namespace Arbor.Directive

open Arbor.Text

/-! ### Characters of words -/

theorem isWordChar_iff {c : Char} : isWordChar c ↔
    (48 ≤ c.toNat ∧ c.toNat ≤ 57) ∨ (65 ≤ c.toNat ∧ c.toNat ≤ 90) ∨ c.toNat = 95 ∨
      (97 ≤ c.toNat ∧ c.toNat ≤ 122) := by
  have h : c = '_' ↔ c.toNat = 95 := ⟨fun h => by subst h; rfl, fun h => Char.toNat_inj.mp h⟩
  simp only [isWordChar, Char.isAlphanum, Char.isAlpha, Char.isUpper, Char.isLower, Char.isDigit,
    Bool.or_eq_true, Bool.and_eq_true, decide_eq_true_eq, beq_iff_eq, ge_iff_le,
    UInt32.le_iff_toNat_le, h]
  change (((65 ≤ c.toNat ∧ c.toNat ≤ 90) ∨ (97 ≤ c.toNat ∧ c.toNat ≤ 122)) ∨
    48 ≤ c.toNat ∧ c.toNat ≤ 57) ∨ _ ↔ _
  omega

theorem isWordChar_of_isWordStart {c : Char} (h : isWordStart c) : isWordChar c := by
  simp only [isWordStart, isWordChar, Char.isAlphanum, Bool.or_eq_true] at h ⊢
  rcases h with h | h
  · exact Or.inl (Or.inl h)
  · exact Or.inr h

/-- A character of a word is neither blank nor a sign. -/
theorem not_blank_of_isWordChar {c : Char} (h : isWordChar c) :
    isBlank c = false ∧ c ≠ '=' ∧ c ≠ '"' := by
  have hn := isWordChar_iff.mp h
  refine ⟨?_, ?_, ?_⟩
  · rw [← Bool.not_eq_true]
    simp only [isBlank, Bool.or_eq_true, Bool.and_eq_true, decide_eq_true_eq, beq_iff_eq]
    omega
  · rintro rfl; revert hn; decide
  · rintro rfl; revert hn; decide

theorem isWordChar_of_isBlank {c : Char} (h : isBlank c) : isWordChar c = false := by
  by_contra hw
  rw [Bool.not_eq_false] at hw
  rw [(not_blank_of_isWordChar hw).1] at h
  cases h

theorem upper_ofList_upperChars (cs : List Char) :
    upper (String.ofList (upperChars cs)) = String.ofList (upperChars cs) := by
  simp [upper, upperChars, Function.comp_def]

/-! ### Escapes -/

/-- The characters between the quotes of a string stand for its value. A character stands for itself
or is written behind a backslash. -/
inductive Decodes : List Char → List Char → Prop where
  | nil : Decodes [] []
  | plain {c : Char} {raw s : List Char} (noQuote : c ≠ '"') (noEscape : c ≠ '\\')
      (more : Decodes raw s) : Decodes (c :: raw) (c :: s)
  | escaped (c : Char) {raw s : List Char} (more : Decodes raw s) :
      Decodes ('\\' :: c :: raw) (unescape c ++ s)

/-- **A string is read as what its characters stand for.** -/
theorem readString_of_decodes {raw s : List Char} (h : Decodes raw s) (rest : List Char) :
    readString (raw ++ '"' :: rest) = some (s, rest) := by
  induction h with
  | nil => simp [readString]
  | @plain c raw s noQuote noEscape more ih =>
    rw [List.cons_append, readString]
    · rw [ih]; rfl
    · exact noQuote
    · intro h; exact absurd h noEscape
    · intro _ _ h; exact absurd h noEscape
  | escaped c more ih => simp [readString, ih]

/-- Escaping is undone by reading. -/
theorem decodes_escaped (s : List Char) : Decodes (s.flatMap escape) s := by
  induction s with
  | nil => exact .nil
  | cons c s ih =>
    by_cases hq : c = '"'
    · subst hq
      exact .escaped '"' ih
    by_cases hb : c = '\\'
    · subst hb
      exact .escaped '\\' ih
    · have he : escape c = [c] := by
        unfold escape
        split
        · exact absurd rfl hq
        · exact absurd rfl hb
        · rfl
      rw [List.flatMap_cons, he]
      exact .plain hq hb ih

/-- What is read as a plain character is no backslash. -/
theorem ne_backslash {c : Char} {rest : List Char} (noEnd : c = '\\' → rest = [] → False)
    (noEscape : ∀ c' rest', c = '\\' → rest = c' :: rest' → False) : c ≠ '\\' := by
  rintro rfl
  cases rest with
  | nil => exact noEnd rfl rfl
  | cons c' rest => exact noEscape c' rest rfl rfl

/-- What is read as a string is what its characters stand for, up to the quote that ends it. -/
theorem decodes_of_readString {cs : List Char} {p : List Char × List Char}
    (h : readString cs = some p) : ∃ raw, cs = raw ++ '"' :: p.2 ∧ Decodes raw p.1 := by
  fun_induction readString cs generalizing p with
  | case1 => cases h
  | case2 rest =>
    cases h
    exact ⟨[], rfl, .nil⟩
  | case3 => cases h
  | case4 c rest ih =>
    obtain ⟨q, hq, rfl⟩ := Option.map_eq_some_iff.mp h
    obtain ⟨raw, rfl, decodes⟩ := ih hq
    exact ⟨'\\' :: c :: raw, rfl, .escaped c decodes⟩
  | case5 c rest noQuote noEnd noEscape ih =>
    obtain ⟨q, hq, rfl⟩ := Option.map_eq_some_iff.mp h
    obtain ⟨raw, hrest, decodes⟩ := ih hq
    exact ⟨c :: raw, by rw [hrest]; rfl, .plain noQuote (ne_backslash noEnd noEscape) decodes⟩

theorem not_decodes_quote {back s : List Char} : ¬ Decodes ('"' :: back) s := by
  intro h
  cases h with
  | plain noQuote => exact noQuote rfl

/-- **A quote inside a string stands behind a backslash.** -/
theorem Decodes.backslash {front back s : List Char} {c : Char}
    (h : Decodes (front ++ c :: '"' :: back) s) : c = '\\' := by
  generalize hcs : front ++ c :: '"' :: back = cs at h
  induction h generalizing front with
  | nil => simp at hcs
  | plain noQuote noEscape more ih =>
    cases front with
    | nil =>
      cases hcs
      exact absurd more not_decodes_quote
    | cons x front =>
      obtain ⟨-, hcs⟩ := List.cons.inj hcs
      exact ih hcs
  | escaped x more ih =>
    match front with
    | [] => exact (List.cons.inj hcs).1
    | [y] =>
      cases hcs
      exact absurd more not_decodes_quote
    | y :: z :: front => exact ih (List.cons.inj (List.cons.inj hcs).2).2

theorem Decodes.length_le {raw s : List Char} (h : Decodes raw s) : s.length ≤ raw.length := by
  induction h with
  | nil => exact Nat.le_refl _
  | plain noQuote noEscape more ih => exact Nat.succ_le_succ ih
  | escaped c more ih =>
    have hc : (unescape c).length ≤ 2 := by unfold unescape; split <;> simp
    simp only [List.length_append, List.length_cons]
    omega

/-! ### Steps of the scanner -/

/-- The text does not go on with a character of a word. -/
def EndsHere (rest : List Char) : Prop := ∀ c ∈ rest.head?, isWordChar c = false

theorem endsHere_nil : EndsHere [] := by simp [EndsHere]

theorem endsHere_cons {c : Char} {rest : List Char} (h : isWordChar c = false) :
    EndsHere (c :: rest) := by simpa [EndsHere] using h

theorem endsHere_dropWhile (cs : List Char) : EndsHere (cs.dropWhile isWordChar) := by
  intro c hc
  have h := List.head?_dropWhile_not isWordChar cs
  rwa [Option.mem_def.mp hc] at h

theorem takeWhile_append_of_endsHere {w rest : List Char} (hw : ∀ c ∈ w, isWordChar c)
    (hr : EndsHere rest) : (w ++ rest).takeWhile isWordChar = w := by
  rw [List.takeWhile_append_of_pos hw]
  cases rest with
  | nil => simp
  | cons c rest => simp [hr c (by simp)]

theorem dropWhile_append_of_endsHere {w rest : List Char} (hw : ∀ c ∈ w, isWordChar c)
    (hr : EndsHere rest) : (w ++ rest).dropWhile isWordChar = rest := by
  rw [List.dropWhile_append_of_pos hw]
  cases rest with
  | nil => simp
  | cons c rest => simp [hr c (by simp)]

theorem scan_blank {total : Nat} {c : Char} {rest : List Char} (h : isBlank c) :
    scan total (c :: rest) = scan total rest := by
  rw [scan, if_pos h]

theorem scan_equals (total : Nat) (rest : List Char) :
    scan total ('=' :: rest) = (scan total rest).map (Token.equals :: ·) := by
  rw [scan, if_neg (by decide), if_pos rfl]
  cases scan total rest <;> rfl

theorem scan_string (total : Nat) {raw s : List Char} (h : Decodes raw s) (rest : List Char) :
    scan total ('"' :: (raw ++ ['"']) ++ rest) =
      (scan total rest).map (Token.str (String.ofList s) :: ·) := by
  rw [List.cons_append, List.append_assoc, List.singleton_append, scan, if_neg (by decide),
    if_neg (by decide), if_pos rfl]
  have hread := readString_of_decodes h rest
  split
  · next hn => cases hread.symm.trans hn
  · next p hp =>
    cases hread.symm.trans hp
    cases scan total rest <;> rfl

theorem scan_word (total : Nat) {c : Char} {w rest : List Char} (hc : isWordStart c)
    (hw : ∀ x ∈ w, isWordChar x) (hr : EndsHere rest) :
    scan total (c :: w ++ rest) =
      (scan total rest).map (Token.word (String.ofList (upperChars (c :: w))) :: ·) := by
  obtain ⟨hb, he, hq⟩ := not_blank_of_isWordChar (isWordChar_of_isWordStart hc)
  rw [List.cons_append, scan, if_neg (by simp [hb]), if_neg he, if_neg hq, if_pos hc,
    takeWhile_append_of_endsHere hw hr, dropWhile_append_of_endsHere hw hr]
  cases scan total rest <;> rfl

/-! ### Spelling tokens -/

/-- **The text spells the tokens:** in front of a rest that does not go on with a word, they are
what is read before the rest. -/
def Spells (cs : List Char) (ts : List Token) : Prop :=
  ∀ total rest, EndsHere rest → scan total (cs ++ rest) = (scan total rest).map (ts ++ ·)

theorem spells_word {c : Char} {w : List Char} (hc : isWordStart c) (hw : ∀ x ∈ w, isWordChar x) :
    Spells (c :: w) [.word (String.ofList (upperChars (c :: w)))] :=
  fun total _ hr => scan_word total hc hw hr

theorem spells_equals : Spells ['='] [.equals] := fun total rest _ => scan_equals total rest

theorem spells_quoted (s : List Char) : Spells (quoteChars s) [.str (String.ofList s)] :=
  fun total rest _ => scan_string total (decodes_escaped s) rest

/-- Pieces that do not run together spell their tokens one after the other. -/
theorem Spells.append {cs cs' : List Char} {ts ts' : List Token} (h : Spells cs ts)
    (h' : Spells cs' ts') (hs : ∀ rest, EndsHere rest → EndsHere (cs' ++ rest)) :
    Spells (cs ++ cs') (ts ++ ts') := by
  intro total rest hr
  rw [List.append_assoc, h total _ (hs rest hr), h' total rest hr]
  cases scan total rest <;> simp [Except.map]

/-- A blank in front changes nothing. -/
theorem Spells.blank_cons {b : Char} {cs : List Char} {ts : List Token} (hb : isBlank b)
    (h : Spells cs ts) : Spells (b :: cs) ts := by
  intro total rest hr
  rw [List.cons_append, scan_blank hb, h total rest hr]

/-- Pieces with a blank between them spell their tokens one after the other. -/
theorem Spells.append_blank {b : Char} {cs cs' : List Char} {ts ts' : List Token} (hb : isBlank b)
    (h : Spells cs ts) (h' : Spells cs' ts') : Spells (cs ++ b :: cs') (ts ++ ts') :=
  h.append (h'.blank_cons hb) fun _ _ => endsHere_cons (isWordChar_of_isBlank hb)

/-- **Pieces with spaces between them spell all their tokens in order.** -/
theorem Spells.append_spaced {cs : List Char} {ts : List Token} {css : List (List Char)}
    {tss : List (List Token)} (h : Spells cs ts) (hs : List.Forall₂ Spells css tss) :
    Spells (cs ++ css.flatMap (' ' :: ·)) (ts ++ tss.flatten) := by
  induction hs generalizing cs ts with
  | nil => simpa using h
  | cons hd _ ih =>
    have := ih (h.append_blank (b := ' ') (by decide) hd)
    simpa using this

/-- A text that spells tokens has just these tokens. -/
theorem Spells.tokenize {cs : List Char} {ts : List Token} (h : Spells cs ts) :
    tokenize cs = .ok ts := by
  have hs := h (byteCount cs) [] endsHere_nil
  rw [List.append_nil] at hs
  rw [Directive.tokenize, hs]
  simp [scan, Except.map]

/-! ### Texts that are cut into tokens -/

section Cut

variable {total : Nat} {cs front rest : List Char} {c : Char} {ts : List Token}
  {fault : Nat → LexError}

/-- The second text does not go on with a word that ends the first one. -/
def Apart (front rest : List Char) : Prop :=
  ∀ b ∈ front.getLast?, isWordChar b = true → EndsHere rest

/-- **The text is cut into the tokens,** with blanks between them. -/
inductive Lexes : List Char → List Token → Prop where
  | nil : Lexes [] []
  | blank {c : Char} {cs : List Char} {ts : List Token} (blank : isBlank c = true)
      (more : Lexes cs ts) : Lexes ([c] ++ cs) ts
  | equals {cs : List Char} {ts : List Token} (more : Lexes cs ts) :
      Lexes (['='] ++ cs) (.equals :: ts)
  | string {raw s cs : List Char} {ts : List Token} (decodes : Decodes raw s) (more : Lexes cs ts) :
      Lexes ('"' :: (raw ++ ['"']) ++ cs) (.str (String.ofList s) :: ts)
  | word {c : Char} {w cs : List Char} {ts : List Token} (start : isWordStart c = true)
      (chars : ∀ x ∈ w, isWordChar x = true) (ends : EndsHere cs) (more : Lexes cs ts) :
      Lexes (c :: w ++ cs) (.word (String.ofList (upperChars (c :: w))) :: ts)

theorem apart_nil : Apart [] rest := nofun

theorem apart_nil_right (cs : List Char) : Apart cs [] := fun _ _ _ => endsHere_nil

/-- After a character that is in no word, every text is apart. -/
theorem apart_concat (front : List Char) (sign : isWordChar c = false) : Apart (front ++ [c]) rest := by
  intro b hb hword
  rw [List.getLast?_concat] at hb
  cases hb
  rw [sign] at hword
  cases hword

theorem Apart.of_append (h : Apart (front ++ cs) rest) : Apart cs rest := by
  intro b hb
  refine h b ?_
  rw [List.getLast?_append, Option.mem_def.mp hb]
  rfl

theorem Apart.append (h : Apart cs rest) (hfront : cs = [] → Apart front rest) :
    Apart (front ++ cs) rest := by
  cases cs with
  | nil =>
    rw [List.append_nil]
    exact hfront rfl
  | cons x cs =>
    intro b hb
    rw [List.getLast?_append_of_ne_nil _ (List.cons_ne_nil x cs)] at hb
    exact h b hb

/-- **What is cut into tokens is read** before any rest that does not go on with a word. -/
theorem Lexes.scan_append (h : Lexes front ts) (apart : Apart front rest) (total : Nat) :
    scan total (front ++ rest) = (scan total rest).map (ts ++ ·) := by
  induction h with
  | nil =>
    rw [List.nil_append]
    cases scan total rest <;> rfl
  | blank blank more ih =>
    rw [List.append_assoc, List.singleton_append, scan_blank blank, ih apart.of_append]
  | equals more ih =>
    rw [List.append_assoc, List.singleton_append, scan_equals, ih apart.of_append]
    cases scan total rest <;> rfl
  | string decodes more ih =>
    rw [List.append_assoc, scan_string total decodes, ih apart.of_append]
    cases scan total rest <;> rfl
  | @word c w cs ts start chars ends more ih =>
    -- behind the word comes what ended it, or the rest, which is apart from it
    have hends : EndsHere (cs ++ rest) := by
      cases cs with
      | nil =>
        have hlast := List.getLast?_eq_some_getLast (List.cons_ne_nil c w)
        rw [List.append_nil] at apart
        have hchars : ∀ x ∈ c :: w, isWordChar x = true :=
          List.forall_mem_cons.mpr ⟨isWordChar_of_isWordStart start, chars⟩
        exact apart _ hlast (hchars _ (List.getLast_mem _))
      | cons x cs => exact endsHere_cons (ends x rfl)
    rw [List.append_assoc, scan_word total start chars hends, ih apart.of_append]
    cases scan total rest <;> rfl

/-! ### Places where the scanner stops -/

/-- **A character that starts no token.** -/
structure Stray (c : Char) : Prop where
  notBlank : isBlank c = false
  notEquals : c ≠ '='
  notQuote : c ≠ '"'
  notLetter : c.isAlpha = false
  notUnderscore : c ≠ '_'

/-- The scanner does not go on with the rest of a text, and what it says of it. -/
inductive Halts : List Char → (Nat → LexError) → Prop where
  | stray {c : Char} {rest : List Char} (stray : Stray c) : Halts (c :: rest) (.unexpectedChar c)
  | unclosed {rest : List Char} (noEnd : readString rest = none) : Halts ('"' :: rest) .unterminated

theorem Halts.scan (h : Halts rest fault) (total : Nat) :
    Directive.scan total rest = .error (fault (total - byteCount rest)) := by
  cases h with
  | stray stray =>
    rw [Directive.scan, if_neg (by simp [stray.notBlank]), if_neg stray.notEquals,
      if_neg stray.notQuote, if_neg (by simp [isWordStart, stray.notLetter, stray.notUnderscore])]
  | unclosed noEnd =>
    rw [Directive.scan, if_neg (by decide), if_neg (by decide), if_pos rfl]
    split
    · rfl
    · next hsome => cases noEnd.symm.trans hsome

/-- **Every text is cut into tokens** up to its end or up to a place where the scanner stops. -/
theorem exists_lexes (cs : List Char) : ∃ front rest ts, cs = front ++ rest ∧ Lexes front ts ∧
    Apart front rest ∧ (rest = [] ∨ ∃ fault, Halts rest fault) := by
  fun_induction scan 0 cs with
  | case1 => exact ⟨[], [], [], rfl, .nil, apart_nil, Or.inl rfl⟩
  | case2 c cs blank ih =>
    obtain ⟨front, rest, ts, rfl, lexes, apart, hend⟩ := ih
    have hblank : Apart [c] rest := apart_concat [] (isWordChar_of_isBlank blank)
    exact ⟨_, rest, ts, rfl, .blank blank lexes, apart.append fun _ => hblank, hend⟩
  | case3 cs dark ih =>
    obtain ⟨front, rest, ts, rfl, lexes, apart, hend⟩ := ih
    have hequals : Apart ['='] rest := apart_concat [] (by decide)
    exact ⟨_, rest, _, rfl, .equals lexes, apart.append fun _ => hequals, hend⟩
  | case4 cs hnone =>
    exact ⟨[], _, [], rfl, .nil, apart_nil, Or.inr ⟨_, .unclosed hnone⟩⟩
  | case5 cs p hp hl dark he ih =>
    obtain ⟨front, rest, ts, hrest, lexes, apart, hend⟩ := ih
    obtain ⟨raw, rfl, decodes⟩ := decodes_of_readString hp
    have hquote : Apart ('"' :: (raw ++ ['"'])) rest := apart_concat ('"' :: raw) (by decide)
    refine ⟨_, rest, _, ?_, .string decodes lexes, apart.append fun _ => hquote, hend⟩
    simp [hrest]
  | case6 c cs dark he hq hc hl word =>
    rename_i ih
    obtain ⟨front, rest, ts, hrest, lexes, apart, hend⟩ := ih
    -- the scanner takes all of the word, so neither part of what follows goes on with it
    have hends : EndsHere (front ++ rest) := hrest ▸ endsHere_dropWhile cs
    refine ⟨_, rest, _, ?_, .word hc (w := cs.takeWhile isWordChar) ?_ ?_ lexes, apart.append ?_, hend⟩
    · rw [List.append_assoc, ← hrest, List.cons_append, List.takeWhile_append_dropWhile]
    · exact fun x hx => List.mem_takeWhile_imp hx
    · cases front with
      | nil => exact endsHere_nil
      | cons x front => exact endsHere_cons (hends x rfl)
    · rintro rfl
      exact fun _ _ _ => hends
  | case7 c cs dark he hq hc =>
    simp only [isWordStart, Bool.or_eq_true, beq_iff_eq, not_or, Bool.not_eq_true] at dark hc
    exact ⟨[], _, [], rfl, .nil, apart_nil, Or.inr ⟨_, .stray ⟨dark, he, hq, hc.1, hc.2⟩⟩⟩

/-- **What the scanner gives** are the tokens that the text is cut into. -/
theorem scan_eq_ok_iff : scan total cs = .ok ts ↔ Lexes cs ts := by
  constructor
  · intro h
    obtain ⟨front, rest, us, rfl, lexes, apart, rfl | ⟨fault, halts⟩⟩ := exists_lexes cs
    · rw [lexes.scan_append apart, scan] at h
      obtain rfl : us = ts := by simpa [Except.map] using h
      rwa [List.append_nil]
    · rw [lexes.scan_append apart, halts.scan] at h
      cases h
  · intro lexes
    have h := lexes.scan_append (apart_nil_right cs) total
    rw [List.append_nil, scan] at h
    simpa [Except.map] using h

theorem tokenize_eq_ok_iff : tokenize cs = .ok ts ↔ Lexes cs ts := scan_eq_ok_iff

end Cut

/-! ### Words come in upper case -/

/-- **Every word that is read comes in upper case.** -/
theorem upper_of_scan {total : Nat} {cs : List Char} {ts : List Token} (h : scan total cs = .ok ts)
    {w : String} (hw : Token.word w ∈ ts) : upper w = w := by
  have lexes := scan_eq_ok_iff.mp h
  clear h
  induction lexes with
  | nil => cases hw
  | blank blank more ih => exact ih hw
  | equals more ih => exact ih (by simpa using hw)
  | string decodes more ih => exact ih (by simpa using hw)
  | word start chars ends more ih =>
    rcases List.mem_cons.mp hw with hw | hw
    · cases hw
      exact upper_ofList_upperChars _
    · exact ih hw

end Arbor.Directive
