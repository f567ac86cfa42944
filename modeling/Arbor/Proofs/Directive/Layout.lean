import Arbor.Proofs.Directive.RoundTrip

/-! # Replies that are laid out freely

A model need not write a directive in its canonical form. The case of the words, the blanks between
tokens, the escapes in strings, lines of prose before the directive and a code fence around the
whole are its own choice. None of it changes what is read, whatever the strings hold.

* `LaidOut`: the ways to write a list of tokens.
* `Composed`, `Reply`: the same with prose before it, and in a fence.
* `LaidOut.spells`: the scanner gives the tokens back.
* `written_of_scan`: conversely, what the scanner gives was written there.
* `body_of_reply`: all that is around the tokens is cut off.
* `parse_reply`: the directive is read. -/

namespace Arbor.Directive

open Arbor.Text

variable {d : Dialect}

/-! ### Ways to write a reply -/

/-- The characters write the token: a word in any case, a string with any escapes. -/
inductive Token.Written : Token → List Char → Prop where
  | word {w : String} {cs : List Char} (same : upperChars cs = w.toList) : Written (.word w) cs
  | str {s : String} {raw : List Char} (decodes : Decodes raw s.toList) :
      Written (.str s) ('"' :: (raw ++ ['"']))
  | equals : Written .equals ['=']

/-- The token is a bare word. -/
def Token.isWord : Token → Bool
  | .word _ => true
  | _ => false

/-- **The characters write the tokens** with blanks between them, which may be missing where no two
words would run together. -/
inductive LaidOut : List Token → List Char → Prop where
  | last {t : Token} {cs : List Char} (written : t.Written cs) : LaidOut [t] cs
  | cons {t u : Token} {ts : List Token} {cs gap rest : List Char} (written : t.Written cs)
      (blank : Blank gap) (apart : t.isWord = true → u.isWord = true → gap ≠ [])
      (more : LaidOut (u :: ts) rest) : LaidOut (t :: u :: ts) (cs ++ (gap ++ rest))

/-- The text starts with a verb of the dialect in any case, and the verb ends there. -/
def OpensWithVerb (d : Dialect) (cs : List Char) : Prop :=
  ∃ v ∈ d.verbs, ∃ w rest, cs = w ++ rest ∧ upperChars w = v.text.toList ∧ endsWord rest = true

/-- One line that does not start with a verb, blanks before it aside. -/
def IsProse (d : Dialect) (line : List Char) : Prop :=
  '\n' ∉ line ∧ ¬ OpensWithVerb d (trimStartChars line)

/-- The tokens with blanks around them, and lines of prose before. -/
inductive Composed (d : Dialect) (ts : List Token) : List Char → Prop where
  | mk {prose : List (List Char)} {before written after : List Char}
      (lines : ∀ line ∈ prose, IsProse d line) (blankBefore : Blank before)
      (laidOut : LaidOut ts written) (blankAfter : Blank after) :
      Composed d ts (prose.flatMap (· ++ ['\n']) ++ before ++ written ++ after)

/-- The end of a line. -/
def IsNewline (cs : List Char) : Prop := cs = ['\n'] ∨ cs = ['\r', '\n']

/-- **A reply that holds the tokens,** with or without a fence around all of it. -/
inductive Reply (d : Dialect) (ts : List Token) : List Char → Prop where
  | bare {cs : List Char} (composed : Composed d ts cs) : Reply d ts cs
  | fenced {before info gap newline cs newline' after : List Char} (blankBefore : Blank before)
      (tag : ∀ c ∈ info, isFenceInfo c = true) (spaces : ∀ c ∈ gap, c = ' ' ∨ c = '\t')
      (opened : IsNewline newline) (composed : Composed d ts cs) (closed : IsNewline newline')
      (blankAfter : Blank after) : Reply d ts
        (before ++ (fence ++ (info ++ (gap ++ (newline ++ (cs ++ (newline' ++ fence)))))) ++ after)

/-! ### Tokens -/

/-- The words among the tokens are those that can be written. -/
def PlainWords (ts : List Token) : Prop := ∀ w, Token.word w ∈ ts → IsPlainWord w

theorem toUpper_eq_or_isLower (c : Char) : c.toUpper = c ∨ c.isLower = true := by
  unfold Char.toUpper
  split
  · next h => exact Or.inr (by simpa [Char.isLower] using h)
  · exact Or.inl rfl

theorem isWordStart_of_isLower {c : Char} (h : c.isLower = true) : isWordStart c := by
  simp [isWordStart, Char.isAlpha, h]

theorem isWordStart_of_toUpper {c : Char} (h : isWordStart c.toUpper) : isWordStart c := by
  rcases toUpper_eq_or_isLower c with hc | hc
  · rwa [hc] at h
  · exact isWordStart_of_isLower hc

theorem isWordChar_of_toUpper {c : Char} (h : isWordChar c.toUpper) : isWordChar c := by
  rcases toUpper_eq_or_isLower c with hc | hc
  · rwa [hc] at h
  · exact isWordChar_of_isWordStart (isWordStart_of_isLower hc)

/-- A word in another case is still a word. -/
theorem chars_of_word {w : String} {cs : List Char} (hw : IsPlainWord w)
    (same : upperChars cs = w.toList) :
    ∃ c rest, cs = c :: rest ∧ isWordStart c ∧ ∀ x ∈ rest, isWordChar x := by
  obtain ⟨u, us, hu, hstart, hchars, -⟩ := hw
  cases cs with
  | nil => cases same.trans hu
  | cons c rest =>
    obtain ⟨hc, hrest⟩ := List.cons.inj ((List.map_cons ..).symm.trans (same.trans hu))
    refine ⟨c, rest, rfl, isWordStart_of_toUpper (hc ▸ hstart), fun x hx => ?_⟩
    exact isWordChar_of_toUpper (hchars _ (hrest ▸ List.mem_map_of_mem hx))

/-- A token is read in front of any rest, but a word only in front of one that does not go on with
it. -/
theorem Token.Written.scan {t : Token} {cs : List Char} (h : t.Written cs)
    (plain : ∀ w, t = .word w → IsPlainWord w) (total : Nat) {rest : List Char}
    (hr : t.isWord = true → EndsHere rest) :
    Directive.scan total (cs ++ rest) = (Directive.scan total rest).map (t :: ·) := by
  cases h with
  | @word w cs same =>
    obtain ⟨c, cs, rfl, hc, hcs⟩ := chars_of_word (plain w rfl) same
    rw [scan_word total hc hcs (hr rfl), same, String.ofList_toList]
  | @str s raw decodes => rw [scan_string total decodes rest, String.ofList_toList]
  | equals => exact scan_equals total rest

/-- What the scanner reads a token from: blanks, and what writes the token. -/
theorem written_of_scan {total : Nat} {cs : List Char} {t : Token} {ts : List Token}
    (h : scan total cs = .ok (t :: ts)) : ∃ gap written rest, cs = gap ++ (written ++ rest) ∧
      Blank gap ∧ t.Written written ∧ scan total rest = .ok ts := by
  have lexes := scan_eq_ok_iff.mp h
  generalize hts : t :: ts = us at lexes
  clear h
  induction lexes with
  | nil => cases hts
  | @blank c cs us blank more ih =>
    obtain ⟨gap, written, rest, rfl, hgap, hwritten, hrest⟩ := ih hts
    exact ⟨c :: gap, written, rest, rfl, List.forall_mem_cons.mpr ⟨blank, hgap⟩, hwritten, hrest⟩
  | @equals cs us more ih =>
    cases hts
    exact ⟨[], ['='], cs, rfl, blank_nil, .equals, scan_eq_ok_iff.mpr more⟩
  | @string raw s cs us decodes more ih =>
    cases hts
    refine ⟨[], '"' :: (raw ++ ['"']), cs, rfl, blank_nil, .str ?_, scan_eq_ok_iff.mpr more⟩
    rwa [String.toList_ofList]
  | @word c w cs us start chars ends more ih =>
    cases hts
    refine ⟨[], c :: w, cs, rfl, blank_nil, .word ?_, scan_eq_ok_iff.mpr more⟩
    rw [String.toList_ofList]

theorem blank_of_scan {total : Nat} {cs : List Char} (h : scan total cs = .ok []) : Blank cs := by
  have lexes := scan_eq_ok_iff.mp h
  generalize hts : [] = us at lexes
  clear h
  induction lexes with
  | nil => exact blank_nil
  | blank blank more ih => exact List.forall_mem_cons.mpr ⟨blank, ih hts⟩
  | equals => cases hts
  | string => cases hts
  | word => cases hts

/-! ### Layouts -/

theorem endsHere_of_blank {gap rest : List Char} (blank : Blank gap) (filled : gap ≠ []) :
    EndsHere (gap ++ rest) := by
  cases gap with
  | nil => exact absurd rfl filled
  | cons c gap => exact endsHere_cons (isWordChar_of_isBlank (blank c List.mem_cons_self))

theorem scan_gap (total : Nat) {gap : List Char} (blank : Blank gap) (rest : List Char) :
    scan total (gap ++ rest) = scan total rest := by
  induction gap with
  | nil => rfl
  | cons c gap ih =>
    rw [List.cons_append, scan_blank (blank c List.mem_cons_self)]
    exact ih fun x hx => blank x (List.mem_cons_of_mem _ hx)

/-- What starts with a sign does not go on with a word. -/
theorem LaidOut.endsHere {u : Token} {ts : List Token} {cs : List Char} (h : LaidOut (u :: ts) cs)
    (sign : u.isWord = false) (rest : List Char) : EndsHere (cs ++ rest) := by
  have hu : ∀ {more : List Char}, u.Written more → ∀ tail, EndsHere (more ++ tail) := by
    intro more written tail
    cases written with
    | word => cases sign
    | str => exact endsHere_cons (by decide)
    | equals => exact endsHere_cons (by decide)
  cases h with
  | last written => exact hu written rest
  | cons written => rw [List.append_assoc]; exact hu written _

/-- **A layout of tokens spells them.** -/
theorem LaidOut.spells {ts : List Token} {cs : List Char} (h : LaidOut ts cs)
    (plain : PlainWords ts) : Spells cs ts := by
  induction h with
  | last written =>
    intro total rest hr
    exact written.scan (fun w hw => plain w (hw ▸ List.mem_singleton_self _)) total fun _ => hr
  | @cons t u ts cs gap more written blank apart laidOut ih =>
    intro total rest hr
    have ih := ih fun w hw => plain w (List.mem_cons_of_mem _ hw)
    -- a word is followed by a blank or by a sign
    have apart' : t.isWord = true → EndsHere (gap ++ more ++ rest) := by
      intro ht
      by_cases hg : gap = []
      · have sign : u.isWord = false := by simpa using fun hu => apart ht hu hg
        rw [hg]
        exact laidOut.endsHere sign rest
      · rw [List.append_assoc]
        exact endsHere_of_blank blank hg
    rw [List.append_assoc, written.scan (fun w hw => plain w (hw ▸ List.mem_cons_self)) total apart',
      List.append_assoc, scan_gap total blank, ih total rest hr]
    cases scan total rest <;> rfl

/-- The characters neither start nor end with a blank, and do not end with a backquote, so no fence
is closed there. -/
structure Unfenced (cs : List Char) : Prop extends Solid cs where
  unclosed : cs.getLast? ≠ some (Char.ofNat 96)

theorem Unfenced.append {cs cs' : List Char} (h : Unfenced cs) (gap : List Char)
    (h' : Unfenced cs') : Unfenced (cs ++ (gap ++ cs')) := by
  refine ⟨⟨?_, ?_⟩, ?_⟩
  · obtain ⟨c, rest, rfl, dark⟩ := h.first
    exact ⟨c, _, rfl, dark⟩
  · obtain ⟨init, c, rfl, dark⟩ := h'.last
    exact ⟨cs ++ (gap ++ init), c, by simp, dark⟩
  · rw [← List.append_assoc, getLast?_append_solid _ h'.toSolid]
    exact h'.unclosed

theorem unfenced_of_wordChars {c : Char} {cs : List Char} (hc : isWordStart c)
    (hcs : ∀ x ∈ cs, isWordChar x) : Unfenced (c :: cs) := by
  have hchars : ∀ x ∈ c :: cs, isWordChar x :=
    List.forall_mem_cons.mpr ⟨isWordChar_of_isWordStart hc, hcs⟩
  have hlast := List.getLast_mem (List.cons_ne_nil c cs)
  refine ⟨⟨⟨c, cs, rfl, ?_⟩, _, _, (List.dropLast_append_getLast (List.cons_ne_nil c cs)).symm, ?_⟩,
    fun h => ?_⟩
  · exact (not_blank_of_isWordChar (isWordChar_of_isWordStart hc)).1
  · exact (not_blank_of_isWordChar (hchars _ hlast)).1
  · exact absurd (hchars _ (List.mem_of_getLast? h)) (by decide)

theorem Token.Written.unfenced {t : Token} {cs : List Char} (h : t.Written cs)
    (plain : ∀ w, t = .word w → IsPlainWord w) : Unfenced cs := by
  cases h with
  | @word w cs same =>
    obtain ⟨c, cs, rfl, hc, hcs⟩ := chars_of_word (plain w rfl) same
    exact unfenced_of_wordChars hc hcs
  | @str s raw decodes =>
    refine ⟨⟨⟨'"', _, rfl, by decide⟩, '"' :: raw, '"', rfl, by decide⟩, ?_⟩
    rw [← List.cons_append, List.getLast?_concat]
    decide
  | equals => exact ⟨⟨⟨'=', [], rfl, by decide⟩, [], '=', rfl, by decide⟩, by decide⟩

theorem LaidOut.unfenced {ts : List Token} {cs : List Char} (h : LaidOut ts cs)
    (plain : PlainWords ts) : Unfenced cs := by
  induction h with
  | last written => exact written.unfenced fun w hw => plain w (hw ▸ List.mem_singleton_self _)
  | cons written blank apart more ih =>
    exact (written.unfenced fun w hw => plain w (hw ▸ List.mem_cons_self)).append _
      (ih fun w hw => plain w (List.mem_cons_of_mem _ hw))

/-! ### The tokens of a directive -/

theorem plainWords_item {it : Item} {w : String} (hw : Token.word w ∈ it.tokens) :
    IsPlainWord w ∨ it = .word w := by
  cases it with
  | target t =>
    obtain rfl : w = t.noun := by simpa [Item.tokens, Target.tokens] using hw
    exact Or.inl (isPlainWord_noun t)
  | keyed key value =>
    obtain rfl : w = key.text := by simpa [Item.tokens, keyedTokens] using hw
    exact Or.inl (isPlainWord_key key)
  | word text =>
    obtain rfl : w = text := by simpa [Item.tokens] using hw
    exact Or.inr rfl

theorem plainWords_tokens (x : Directive d) : PlainWords x.tokens := by
  intro w hw
  rw [tokens, ← flatMap_argumentItems] at hw
  rcases List.mem_cons.mp hw with hverb | hargument
  · rw [Token.word.inj hverb]
    exact isPlainWord_verb x.verb
  · obtain ⟨it, hit, hw⟩ := List.mem_flatMap.mp hargument
    rcases plainWords_item hw with plain | rfl
    · exact plain
    · obtain ⟨kind, rfl⟩ := kind_of_mem_argumentItems hit
      exact isPlainWord_kind kind

/-- Behind the verb nothing comes or a word. -/
theorem tokens_eq (x : Directive d) :
    x.tokens = [.word x.verb.text] ∨ ∃ w ts, x.tokens = .word x.verb.text :: .word w :: ts := by
  rw [tokens, ← flatMap_argumentItems]
  cases x.argumentItems with
  | nil => exact Or.inl rfl
  | cons it its =>
    obtain ⟨w, ts, h⟩ := tokens_cons_eq it its
    exact Or.inr ⟨w, ts, by rw [h]⟩

theorem verb_mem (x : Directive d) : x.verb ∈ d.verbs := List.mem_of_find?_eq_some (verb?_verb x)

/-- Every layout starts with the verb as a whole word. -/
theorem opensWithVerb_of_laidOut {x : Directive d} {cs : List Char} (h : LaidOut x.tokens cs) :
    OpensWithVerb d cs := by
  rcases tokens_eq x with ht | ⟨w, ts, ht⟩
  · rw [ht] at h
    cases h with
    | last written =>
      cases written with
      | word same => exact ⟨x.verb, verb_mem x, cs, [], by simp, same, rfl⟩
  · rw [ht] at h
    cases h with
    | @cons _ _ _ cs gap rest written blank apart more =>
      cases written with
      | word same =>
        refine ⟨x.verb, verb_mem x, cs, gap ++ rest, rfl, same, ?_⟩
        cases gap with
        | nil => exact absurd rfl (apart rfl rfl)
        | cons c gap => exact blank c List.mem_cons_self

/-! ### Verbs at the start of a line -/

theorem opensWithVerb_iff {cs : List Char} : OpensWithVerb d cs ↔ startsWithVerb d cs = true := by
  rw [startsWithVerb, Bool.and_eq_true, Dialect.verb?, List.find?_isSome]
  constructor
  · rintro ⟨v, hv, w, rest, rfl, same, ends⟩
    obtain ⟨c, w, rfl, hc, hw⟩ := chars_of_word (isPlainWord_verb v) same
    have hchars : ∀ x ∈ c :: w, isWordChar x :=
      List.forall_mem_cons.mpr ⟨isWordChar_of_isWordStart hc, hw⟩
    have hend : EndsHere rest := by
      cases rest with
      | nil => exact endsHere_nil
      | cons b rest => exact endsHere_cons (isWordChar_of_isBlank ends)
    rw [takeWhile_append_of_endsHere hchars hend, dropWhile_append_of_endsHere hchars hend, same,
      String.ofList_toList]
    exact ⟨⟨v, hv, beq_self_eq_true _⟩, ends⟩
  · rintro ⟨⟨v, hv, same⟩, ends⟩
    refine ⟨v, hv, _, _, List.takeWhile_append_dropWhile.symm, ?_, ends⟩
    rw [eq_of_beq same, String.toList_ofList]

/-- A verb is not blank. -/
theorem not_opensWithVerb_nil : ¬ OpensWithVerb d [] := by
  rintro ⟨v, -, w, rest, h, same, -⟩
  obtain ⟨rfl, rfl⟩ := List.nil_eq_append_iff.mp h
  obtain ⟨c, w, hv, -⟩ := isPlainWord_verb v
  cases same.trans hv

/-- Whether a text starts with a verb is seen from its first line. -/
theorem opensWithVerb_line {line rest : List Char} (one : '\n' ∉ line) :
    OpensWithVerb d (line ++ '\n' :: rest) ↔ OpensWithVerb d line := by
  constructor
  · rintro ⟨v, hv, w, tail, h, same, ends⟩
    rcases List.append_eq_append_iff.mp h with ⟨more, rfl, htail⟩ | ⟨more, rfl, rfl⟩
    · -- the verb does not reach over the end of the line
      cases more with
      | nil => exact ⟨v, hv, line, [], by simp, by simpa using same, rfl⟩
      | cons c more =>
        obtain ⟨rfl, -⟩ := List.cons.inj htail
        obtain ⟨c, cs, hw, hc, hcs⟩ := chars_of_word (isPlainWord_verb v) same
        have hmem : '\n' ∈ c :: cs := hw ▸ (by simp)
        have hchar : isWordChar '\n' := by
          rcases List.mem_cons.mp hmem with rfl | h
          · exact isWordChar_of_isWordStart hc
          · exact hcs _ h
        exact absurd hchar (by decide)
    · refine ⟨v, hv, w, more, rfl, same, ?_⟩
      cases more with
      | nil => rfl
      | cons c more => exact ends
  · rintro ⟨v, hv, w, tail, rfl, same, ends⟩
    refine ⟨v, hv, w, tail ++ '\n' :: rest, List.append_assoc .., same, ?_⟩
    cases tail with
    | nil => rfl
    | cons c tail => exact ends

theorem opensWithVerb_takeWhile {cs : List Char} :
    OpensWithVerb d (cs.takeWhile (· != '\n')) ↔ OpensWithVerb d cs := by
  have one : '\n' ∉ cs.takeWhile (· != '\n') := fun h => by simpa using List.mem_takeWhile_imp h
  have hcs := List.takeWhile_append_dropWhile (p := (· != '\n')) (l := cs)
  cases hrest : cs.dropWhile (· != '\n') with
  | nil =>
    rw [hrest, List.append_nil] at hcs
    rw [hcs]
  | cons c rest =>
    have hc := List.head?_dropWhile_not (· != '\n') cs
    rw [hrest] at hc hcs
    obtain rfl : c = '\n' := by simpa using hc
    rw [← @opensWithVerb_line d _ rest one, hcs]

/-! ### What is cut off in front -/

/-- What stands before the tokens in their own line and in lines of prose. -/
inductive Lead (d : Dialect) : List Char → Prop where
  | indent {gap : List Char} (blank : Blank gap) (one : '\n' ∉ gap) : Lead d gap
  | line {line rest : List Char} (prose : IsProse d line) (more : Lead d rest) :
      Lead d (line ++ '\n' :: rest)

/-- Blanks before the tokens stand in their line or in blank lines. -/
theorem lead_of_blank {gap : List Char} (blank : Blank gap) : Lead d gap := by
  induction gap with
  | nil => exact .indent nofun (by simp)
  | cons c gap ih =>
    have hc := blank c List.mem_cons_self
    have ih := ih fun x hx => blank x (List.mem_cons_of_mem _ hx)
    by_cases hline : c = '\n'
    · subst hline
      exact @Lead.line d [] gap ⟨by simp, not_opensWithVerb_nil⟩ ih
    · cases ih with
      | indent _ one => exact .indent blank (by simp [Ne.symm hline, one])
      | @line line rest prose more =>
        refine @Lead.line d (c :: line) rest ⟨by simp [Ne.symm hline, prose.1], ?_⟩ more
        rw [trimStartChars, List.dropWhile_cons_of_pos hc]
        exact prose.2

theorem lead_of_prose {prose : List (List Char)} {before : List Char}
    (lines : ∀ line ∈ prose, IsProse d line) (blank : Blank before) :
    Lead d (prose.flatMap (· ++ ['\n']) ++ before) := by
  induction prose with
  | nil => exact lead_of_blank blank
  | cons line prose ih =>
    have more := ih fun l hl => lines l (List.mem_cons_of_mem _ hl)
    have h := Lead.line (lines line List.mem_cons_self) more
    simpa using h

/-- **Trimming a lead** removes it or leaves one that does not start with a verb. -/
theorem Lead.trimmed {lead : List Char} (h : Lead d lead) : ∃ lead',
    (lead' = [] ∨ Lead d lead' ∧ ∀ rest, ¬ OpensWithVerb d (lead' ++ rest)) ∧
      ∀ c rest, isBlank c = false → trimStartChars (lead ++ c :: rest) = lead' ++ c :: rest := by
  induction h with
  | indent blank one =>
    refine ⟨[], Or.inl rfl, fun c rest dark => ?_⟩
    rw [trimStartChars_append blank, trimStartChars_cons dark, List.nil_append]
  | @line line lead prose more ih =>
    rcases blank_cases line with blank | ⟨gap, b, text, rfl, blank, dark⟩
    · obtain ⟨lead', hlead, htrim⟩ := ih
      refine ⟨lead', hlead, fun c rest dark => ?_⟩
      have hskip : Blank (line ++ ['\n']) := by
        simpa [Blank, or_imp, forall_and] using ⟨blank, by decide⟩
      have hcut : line ++ '\n' :: lead ++ c :: rest = line ++ ['\n'] ++ (lead ++ c :: rest) := by
        simp
      rw [hcut, trimStartChars_append hskip, htrim c rest dark]
    · have hline : trimStartChars (gap ++ b :: text) = b :: text := by
        rw [trimStartChars_append blank, trimStartChars_cons dark]
      have prose' : IsProse d (b :: text) :=
        ⟨fun h => prose.1 (List.mem_append_right gap h), by
          rw [trimStartChars_cons dark, ← hline]
          exact prose.2⟩
      refine ⟨b :: text ++ '\n' :: lead, Or.inr ⟨.line prose' more, fun rest => ?_⟩,
        fun c rest _ => ?_⟩
      · have hcut : b :: text ++ '\n' :: lead ++ rest = b :: text ++ '\n' :: (lead ++ rest) := by
          simp
        rw [hcut, opensWithVerb_line prose'.1, ← hline]
        exact prose.2
      · rw [List.append_assoc, List.append_assoc, trimStartChars_append blank, List.cons_append,
          trimStartChars_cons dark]
        simp

theorem fromVerbLine?_eq {cs : List Char} (filled : cs ≠ []) : fromVerbLine? d cs =
    if startsWithVerb d (trimStartChars (cs.takeWhile (· != '\n'))) then some cs
    else fromVerbLine? d ((cs.dropWhile (· != '\n')).drop 1) := by
  cases cs with
  | nil => exact absurd rfl filled
  | cons c cs => rw [fromVerbLine?]

/-- **Lines of prose are skipped** up to the line of the verb. -/
theorem Lead.skipped {lead : List Char} (h : Lead d lead) {c : Char} {rest : List Char}
    (dark : isBlank c = false) (opens : OpensWithVerb d (c :: rest)) :
    ∃ gap, Blank gap ∧ fromVerbLine? d (lead ++ c :: rest) = some (gap ++ c :: rest) := by
  induction h with
  | @indent gap blank one =>
    have hc : (c != '\n') = true := by
      rw [bne_iff_ne]
      rintro rfl
      revert dark
      decide
    have hgap : ∀ x ∈ gap, (x != '\n') = true := fun x hx => by
      rw [bne_iff_ne]
      rintro rfl
      exact one hx
    have htake : (c :: rest).takeWhile (· != '\n') = c :: rest.takeWhile (· != '\n') :=
      List.takeWhile_cons_of_pos hc
    have hword : trimStartChars ((c :: rest).takeWhile (· != '\n')) =
        (c :: rest).takeWhile (· != '\n') := by
      rw [htake, trimStartChars_cons dark]
    refine ⟨gap, blank, ?_⟩
    rw [fromVerbLine?_eq (by simp), List.takeWhile_append_of_pos hgap, trimStartChars_append blank,
      hword, if_pos (opensWithVerb_iff.mp (opensWithVerb_takeWhile.mpr opens))]
  | @line line lead prose more ih =>
    obtain ⟨gap, blank, hmore⟩ := ih
    have hline : ∀ x ∈ line, (x != '\n') = true := fun x hx => by
      rw [bne_iff_ne]
      rintro rfl
      exact prose.1 hx
    have hprose : ¬ startsWithVerb d (trimStartChars line) = true :=
      fun h => prose.2 (opensWithVerb_iff.mpr h)
    refine ⟨gap, blank, ?_⟩
    rw [List.append_assoc, fromVerbLine?_eq (by simp), List.takeWhile_append_of_pos hline,
      List.dropWhile_append_of_pos hline, List.cons_append,
      List.takeWhile_cons_of_neg (by decide), List.dropWhile_cons_of_neg (by decide),
      List.append_nil, if_neg hprose, List.drop_one, List.tail_cons, hmore]

/-! ### What is cut off at the end -/

/-- **What trimming leaves** of tokens with a lead before them and blanks behind them. -/
theorem Lead.trimChars {lead cs after : List Char} (h : Lead d lead) (solid : Solid cs)
    (blank : Blank after) : ∃ lead',
    (lead' = [] ∨ Lead d lead' ∧ ∀ rest, ¬ OpensWithVerb d (lead' ++ rest)) ∧
      Text.trimChars (lead ++ cs ++ after) = lead' ++ cs := by
  obtain ⟨lead', hlead, htrim⟩ := h.trimmed
  refine ⟨lead', hlead, ?_⟩
  rw [trimChars_append_solid lead solid blank]
  obtain ⟨c, rest, rfl, dark⟩ := solid.first
  exact htrim c rest dark

/-! ### Fences -/

theorem behindFence?_suffix {cs rest : List Char} (h : behindFence? cs = some rest) :
    rest <:+ cs := by
  unfold behindFence? at h
  split at h
  · have hdrop : ((cs.drop 3).dropWhile isFenceInfo).dropWhile (fun c => c == ' ' || c == '\t') <:+
        cs :=
      ((List.dropWhile_suffix _).trans (List.dropWhile_suffix _)).trans (List.drop_suffix 3 cs)
    split at h
    · next heq =>
      cases h
      exact (List.suffix_cons _ _).trans (heq ▸ hdrop)
    · next heq =>
      cases h
      exact ((List.suffix_cons _ _).trans (List.suffix_cons _ _)).trans (heq ▸ hdrop)
    · cases h
  · cases h

/-- A text that does not end with a backquote is in no fence. -/
theorem unfence?_eq_none {cs : List Char} (unclosed : cs.getLast? ≠ some (Char.ofNat 96)) :
    unfence? cs = none := by
  unfold unfence?
  cases hrest : behindFence? cs with
  | none => rfl
  | some rest =>
    have hfence : ¬ fence.isSuffixOf rest = true := by
      intro h
      obtain ⟨init, rfl⟩ := (List.isSuffixOf_iff_suffix.mp h).trans (behindFence?_suffix hrest)
      exact unclosed (by simp [fence])
    exact if_neg hfence

theorem behindFence?_opened {info gap newline rest : List Char}
    (tag : ∀ c ∈ info, isFenceInfo c = true) (spaces : ∀ c ∈ gap, c = ' ' ∨ c = '\t')
    (opened : IsNewline newline) :
    behindFence? (fence ++ (info ++ (gap ++ (newline ++ rest)))) = some rest := by
  have hprefix : fence.isPrefixOf (fence ++ (info ++ (gap ++ (newline ++ rest)))) = true :=
    List.isPrefixOf_iff_prefix.mpr (List.prefix_append _ _)
  have hdrop : (fence ++ (info ++ (gap ++ (newline ++ rest)))).drop 3 =
      info ++ (gap ++ (newline ++ rest)) := List.drop_left' rfl
  -- the name ends at the first space, or at the end of the line
  have htag : (info ++ (gap ++ (newline ++ rest))).dropWhile isFenceInfo =
      gap ++ (newline ++ rest) := by
    rw [List.dropWhile_append_of_pos tag]
    cases gap with
    | nil => rcases opened with rfl | rfl <;> exact List.dropWhile_cons_of_neg (by decide)
    | cons c gap =>
      rcases spaces c List.mem_cons_self with rfl | rfl <;>
        exact List.dropWhile_cons_of_neg (by decide)
  have hspaces : (gap ++ (newline ++ rest)).dropWhile (fun c => c == ' ' || c == '\t') =
      newline ++ rest := by
    rw [List.dropWhile_append_of_pos fun c hc => by simpa using spaces c hc]
    rcases opened with rfl | rfl <;> exact List.dropWhile_cons_of_neg (by decide)
  rw [behindFence?, if_pos hprefix, hdrop, htag, hspaces]
  rcases opened with rfl | rfl <;> rfl

/-- **A fence around a text is removed,** whatever the text holds. -/
theorem unfence?_fenced {info gap newline inner : List Char}
    (tag : ∀ c ∈ info, isFenceInfo c = true) (spaces : ∀ c ∈ gap, c = ' ' ∨ c = '\t')
    (opened : IsNewline newline) :
    unfence? (fence ++ (info ++ (gap ++ (newline ++ (inner ++ fence))))) = some inner := by
  have hclosed : fence.isSuffixOf (inner ++ fence) = true :=
    List.isSuffixOf_iff_suffix.mpr (List.suffix_append _ _)
  have hinner : (inner ++ fence).take ((inner ++ fence).length - 3) = inner :=
    List.take_left' (by simp [fence])
  rw [unfence?, behindFence?_opened tag spaces opened]
  change (if fence.isSuffixOf (inner ++ fence) = true then some _ else none) = some inner
  rw [if_pos hclosed, hinner]

theorem solid_fenced (inner : List Char) : Solid (fence ++ (inner ++ fence)) :=
  ⟨⟨Char.ofNat 96, _, rfl, by decide⟩,
    fence ++ (inner ++ [Char.ofNat 96, Char.ofNat 96]), Char.ofNat 96, by simp [fence], by decide⟩

/-! ### Replies -/

/-- What is left of a reply once a fence and the blanks at its ends are removed. -/
def unwrapped (cs : List Char) : List Char :=
  ((unfence? (Text.trimChars cs)).map Text.trimChars).getD (Text.trimChars cs)

/-- The text is some tokens behind a lead, or behind nothing. -/
inductive Led (d : Dialect) (ts : List Token) : List Char → Prop where
  | mk {lead cs : List Char} (laidOut : LaidOut ts cs)
      (trimmed : lead = [] ∨ Lead d lead ∧ ∀ rest, ¬ OpensWithVerb d (lead ++ rest)) :
      Led d ts (lead ++ cs)

theorem LaidOut.composed {d : Dialect} {ts : List Token} {cs : List Char} (h : LaidOut ts cs) :
    Composed d ts cs := by
  have composed := @Composed.mk d ts [] [] cs [] (by simp) blank_nil h blank_nil
  simpa using composed

theorem Composed.led {ts : List Token} {text : List Char} (h : Composed d ts text)
    (plain : PlainWords ts) {after : List Char} (blank : Blank after) :
    Led d ts (Text.trimChars (text ++ after)) := by
  cases h with
  | @mk prose before written after' lines blankBefore laidOut blankAfter =>
    obtain ⟨lead, trimmed, h⟩ := (lead_of_prose lines blankBefore).trimChars
      (laidOut.unfenced plain).toSolid (blankAfter.append blank)
    rw [List.append_assoc, h]
    exact .mk laidOut trimmed

/-- **Inside a fence or without one,** a lead and the tokens are left. -/
theorem Reply.led {ts : List Token} {text : List Char} (h : Reply d ts text)
    (plain : PlainWords ts) : Led d ts (unwrapped text) := by
  cases h with
  | bare composed =>
    have h := composed.led plain blank_nil
    rw [List.append_nil] at h
    have hnone : unfence? (Text.trimChars text) = none := by
      generalize Text.trimChars text = trimmed at h
      cases h with
      | @mk lead cs laidOut _ =>
        have unfenced := laidOut.unfenced plain
        refine unfence?_eq_none ?_
        rw [getLast?_append_solid lead unfenced.toSolid]
        exact unfenced.unclosed
    rw [unwrapped, hnone]
    exact h
  | @fenced before info gap newline cs newline' after blankBefore tag spaces opened composed closed
      blankAfter =>
    have hnewline : Blank newline' := by rcases closed with rfl | rfl <;> simp [Blank] <;> decide
    have hsolid := solid_fenced (info ++ (gap ++ (newline ++ (cs ++ newline'))))
    have htext : fence ++ (info ++ (gap ++ (newline ++ (cs ++ (newline' ++ fence))))) =
        fence ++ (info ++ (gap ++ (newline ++ (cs ++ newline'))) ++ fence) := by simp
    have hinner : unfence? (fence ++ (info ++ (gap ++ (newline ++ (cs ++ (newline' ++ fence)))))) =
        some (cs ++ newline') := by
      rw [← List.append_assoc cs]
      exact unfence?_fenced tag spaces opened
    rw [unwrapped, htext, trimChars_solid hsolid blankBefore blankAfter, ← htext, hinner]
    exact composed.led plain hnewline

/-- **Nothing but the tokens is left** of a reply. -/
theorem body_of_reply {x : Directive d} {text : List Char} (h : Reply d x.tokens text) :
    LaidOut x.tokens (body d text) := by
  have hbody : body d text = if startsWithVerb d (unwrapped text) then unwrapped text
      else ((fromVerbLine? d (unwrapped text)).map Text.trimChars).getD (unwrapped text) := rfl
  have led := h.led (plainWords_tokens x)
  rw [hbody]
  generalize unwrapped text = inner at led
  cases led with
  | @mk lead cs laidOut trimmed =>
    have solid := (laidOut.unfenced (plainWords_tokens x)).toSolid
    have opens := opensWithVerb_of_laidOut laidOut
    rcases trimmed with rfl | ⟨hlead, stays⟩
    · rw [List.nil_append, if_pos (opensWithVerb_iff.mp opens)]
      exact laidOut
    · have hstays : ¬ startsWithVerb d (lead ++ cs) = true :=
        fun hs => stays cs (opensWithVerb_iff.mpr hs)
      obtain ⟨c, rest, rfl, dark⟩ := solid.first
      obtain ⟨gap, blank, hskip⟩ := hlead.skipped dark opens
      have htrim := trimChars_solid solid blank blank_nil
      rw [List.append_nil] at htrim
      rw [if_neg hstays, hskip, Option.map_some, Option.getD_some, htrim]
      exact laidOut

/-- A text that starts with a verb, ends there with a quote and has no fence around it is taken as it
is. -/
theorem body_of_unfenced {d : Dialect} {cs : List Char} (unfenced : Unfenced cs)
    (opens : OpensWithVerb d cs) : body d cs = cs := by
  have hbody : body d cs = if startsWithVerb d (unwrapped cs) then unwrapped cs
      else ((fromVerbLine? d (unwrapped cs)).map Text.trimChars).getD (unwrapped cs) := rfl
  have hunwrapped : unwrapped cs = cs := by
    rw [unwrapped, unfenced.toSolid.trimChars, unfence?_eq_none unfenced.unclosed]
    rfl
  rw [hbody, hunwrapped, if_pos (opensWithVerb_iff.mp opens)]

/-- **A directive is read however it is laid out.** -/
theorem parse_reply {x : Directive d} {text : String} (filled : x.Filled)
    (h : Reply d x.tokens text.toList) : parse d text = .ok x :=
  parse_eq_ok_iff_writes.mpr ⟨x.tokens, ((body_of_reply h).spells (plainWords_tokens x)).tokenize,
    filled, Or.inl rfl⟩

/-- A command in a fence, behind prose, with a fence and an escape in its string. -/
theorem parse_reply_fenced :
    (Directive.run "ls\n```" : Directive .coder).Filled ∧
      Reply .coder (Directive.run "ls\n```" : Directive .coder).tokens
        "\n```text \nI will look.\nRun\u2003Command =\t\"ls\\n```\" \r\n```".toList ∧
      parse .coder "\n```text \nI will look.\nRun\u2003Command =\t\"ls\\n```\" \r\n```" =
        .ok (.run "ls\n```") := by
  have decodes : Decodes "ls\\n```".toList "ls\n```".toList :=
    .plain (by decide) (by decide) (.plain (by decide) (by decide) (.escaped 'n'
      (.plain (by decide) (by decide) (.plain (by decide) (by decide)
        (.plain (by decide) (by decide) .nil)))))
  have laidOut : LaidOut (Directive.run "ls\n```" : Directive .coder).tokens
      ("Run".toList ++ (['\u2003'] ++ ("Command".toList ++ ([' '] ++ (['='] ++ (['\t'] ++
        ('"' :: ("ls\\n```".toList ++ ['"'])))))))) :=
    .cons (.word rfl) (blank_singleton (by decide)) (by simp)
      (.cons (.word rfl) (blank_singleton (by decide)) (by simp)
        (.cons .equals (blank_singleton (by decide)) (by simp) (.last (.str decodes))))
  have prose : IsProse .coder "I will look.".toList :=
    ⟨by decide +kernel, fun h => absurd (opensWithVerb_iff.mp h) (by decide +kernel)⟩
  have reply : Reply .coder (Directive.run "ls\n```" : Directive .coder).tokens
      "\n```text \nI will look.\nRun\u2003Command =\t\"ls\\n```\" \r\n```".toList := by
    have tag : ∀ c ∈ "text".toList, isFenceInfo c = true := List.all_eq_true.mp (by decide +kernel)
    have spaces : ∀ c ∈ [' '], c = ' ' ∨ c = '\t' := by simp
    have h := Reply.fenced (blank_singleton (show isBlank '\n' = true by decide)) tag spaces
      (Or.inl rfl) (Composed.mk (List.forall_mem_singleton.mpr prose) blank_nil laidOut
        (blank_singleton (show isBlank ' ' = true by decide))) (Or.inr rfl) blank_nil
    convert h using 1
    decide +kernel
  exact ⟨trivial, reply, parse_reply trivial reply⟩

end Arbor.Directive
