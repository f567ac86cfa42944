import Arbor.Directive.Print
import Arbor.Proofs.Blank
import Arbor.Proofs.Directive.Grammar

/-! # Writing a directive and reading it back

The canonical text of a directive spells its canonical tokens (`tokenize_print`), and nothing is cut
off it before it is read (`body_print`): it starts with its verb and ends with the verb or with a
quote. So writing is undone by reading, except for lists that are empty, which cannot be written.

* `parse_print_iff_filled`: the round trip, in both directions.
* `parse_accepts_exactly_what_writes`: the texts that are read as a directive are exactly those whose
  tokens write it. -/

namespace Arbor.Directive

open Arbor.Text

/-! ### The words of the language -/

/-- The word is written as it is read: letters, digits and underscores in upper case. -/
def IsPlainWord (s : String) : Prop :=
  ∃ c w, s.toList = c :: w ∧ isWordStart c ∧ (∀ x ∈ w, isWordChar x) ∧
    upperChars (c :: w) = c :: w

theorem IsPlainWord.spells {s : String} (h : IsPlainWord s) : Spells s.toList [.word s] := by
  obtain ⟨c, w, hs, hc, hw, hup⟩ := h
  have := spells_word hc hw
  rw [hup, ← hs, String.ofList_toList] at this
  exact this

theorem IsPlainWord.upper {s : String} (h : IsPlainWord s) : upperChars s.toList = s.toList := by
  obtain ⟨c, w, hs, -, -, hup⟩ := h
  rw [hs, hup]

theorem IsPlainWord.scan {s : String} (h : IsPlainWord s) (total : Nat) (rest : List Char) :
    Directive.scan total (s.toList ++ ' ' :: rest) =
      (Directive.scan total rest).map (Token.word s :: ·) := by
  rw [h.spells total _ (endsHere_cons (by decide)), scan_blank (by decide)]
  rfl

theorem isPlainWord_verb (v : Verb) : IsPlainWord v.text := by
  cases v <;> exact ⟨_, _, rfl, by decide, List.all_eq_true.mp (by decide), by decide⟩

theorem isPlainWord_key (key : Key) : IsPlainWord key.text := by
  cases key <;> exact ⟨_, _, rfl, by decide, List.all_eq_true.mp (by decide), by decide⟩

theorem isPlainWord_noun (t : Target) : IsPlainWord t.noun := by
  unfold Target.noun
  split <;> exact ⟨_, _, rfl, by decide, List.all_eq_true.mp (by decide), by decide⟩

theorem isPlainWord_kind (kind : HelperKind) : IsPlainWord kind.text := by
  cases kind
  exact ⟨_, _, rfl, by decide, List.all_eq_true.mp (by decide), by decide⟩

/-! ### The text of a directive -/

variable {d : Dialect}

theorem spells_quote (s : String) : Spells (quote s).toList [.str s] := by
  have := spells_quoted s.toList
  rwa [String.ofList_toList, ← String.toList_ofList (l := quoteChars s.toList)] at this

theorem spells_target (t : Target) : Spells t.print.toList t.tokens := by
  have h : t.print.toList = t.noun.toList ++ ' ' :: (quote t.name).toList := by
    simp [Target.print]
  rw [h]
  exact (isPlainWord_noun t).spells.append_blank (by decide) (spells_quote t.name)

theorem spells_keyed (key : Key) (value : String) :
    Spells (printKeyed key value).toList (keyedTokens key value) := by
  have h : (printKeyed key value).toList = key.text.toList ++ (['='] ++ (quote value).toList) := by
    simp [printKeyed]
  rw [h]
  -- neither an equals sign nor a quote goes on with the word of the key
  refine (isPlainWord_key key).spells.append (spells_equals.append (spells_quote value) ?_) ?_
  · intro rest _
    rw [quote, String.toList_ofList]
    exact endsHere_cons (by decide)
  · intro rest _
    exact endsHere_cons (by decide)

theorem spells_order (o : HelperOrder) : Spells o.print.toList o.tokens := by
  have h : o.print.toList = o.kind.text.toList ++ ' ' :: (printKeyed .prompt o.prompt).toList := by
    simp [HelperOrder.print]
  rw [h]
  exact (isPlainWord_kind o.kind).spells.append_blank (by decide) (spells_keyed _ _)

theorem spells_assignment (a : Target × String) :
    Spells (a.1.print ++ " " ++ printKeyed .prompt a.2).toList
      (a.1.tokens ++ keyedTokens .prompt a.2) := by
  have h : (a.1.print ++ " " ++ printKeyed .prompt a.2).toList =
      a.1.print.toList ++ ' ' :: (printKeyed .prompt a.2).toList := by
    simp
  rw [h]
  exact (spells_target a.1).append_blank (by decide) (spells_keyed _ _)

/-- Each argument spells its tokens. -/
theorem spells_arguments (x : Directive d) :
    List.Forall₂ (fun a ts => Spells (String.toList a) ts) x.arguments x.argumentTokens := by
  cases x with
  | read ts => simp [arguments, argumentTokens, spells_target]
  | spawn os => simp [arguments, argumentTokens, spells_order]
  | assign as => simpa [arguments, argumentTokens] using fun a b _ => spells_assignment (a, b)
  | finish report => rw [arguments, argumentTokens]; split <;> simp [spells_keyed]
  | create t content =>
    cases content <;> simp [arguments, argumentTokens, spells_target, spells_keyed]
  | delete t => simp [arguments, argumentTokens, spells_target]
  | wait => simp [arguments, argumentTokens]
  | _ => simp [arguments, argumentTokens, spells_keyed]

theorem intercalate_space (cs : List Char) (css : List (List Char)) :
    [' '].intercalate (cs :: css) = cs ++ css.flatMap (' ' :: ·) := by
  induction css generalizing cs with
  | nil => simp
  | cons c css ih =>
    rw [List.intercalate_cons_cons, ih, List.flatMap_cons]
    simp

/-- The text is the verb with every argument behind a space. -/
theorem toList_print (x : Directive d) :
    (print x).toList = x.verb.text.toList ++ (x.arguments.map String.toList).flatMap (' ' :: ·) := by
  rw [print, String.toList_intercalate, List.map_cons]
  exact intercalate_space _ _

/-- **The canonical text has the canonical tokens.** -/
theorem tokenize_print (x : Directive d) : tokenize (print x).toList = .ok x.tokens := by
  refine Spells.tokenize ?_
  rw [toList_print]
  exact (isPlainWord_verb x.verb).spells.append_spaced
    (List.forall₂_map_left_iff.mpr (spells_arguments x))

/-! ### Nothing is cut off -/

/-- The text ends with a quote. -/
def EndsQuoted (s : String) : Prop := ∃ cs, s.toList = cs ++ ['"']

theorem endsQuoted_quote (s : String) : EndsQuoted (quote s) :=
  ⟨'"' :: s.toList.flatMap escape, by simp [quote, quoteChars]⟩

theorem EndsQuoted.append {s : String} (h : EndsQuoted s) (r : String) : EndsQuoted (r ++ s) := by
  obtain ⟨cs, hs⟩ := h
  exact ⟨r.toList ++ cs, by simp [hs]⟩

theorem endsQuoted_target (t : Target) : EndsQuoted t.print := (endsQuoted_quote _).append _

theorem endsQuoted_keyed (key : Key) (value : String) : EndsQuoted (printKeyed key value) :=
  (endsQuoted_quote _).append _

theorem endsQuoted_argument {x : Directive d} {a : String} (h : a ∈ x.arguments) :
    EndsQuoted a := by
  cases x with
  | read ts =>
    obtain ⟨t, -, rfl⟩ := List.mem_map.mp h
    exact endsQuoted_target t
  | spawn os =>
    obtain ⟨o, -, rfl⟩ := List.mem_map.mp h
    exact (endsQuoted_keyed _ _).append _
  | assign as =>
    obtain ⟨a, -, rfl⟩ := List.mem_map.mp h
    exact (endsQuoted_keyed _ _).append _
  | finish report =>
    rw [arguments] at h
    split at h
    · cases h
    · rw [List.mem_singleton.mp h]
      exact endsQuoted_keyed _ _
  | create t content =>
    rcases List.mem_cons.mp h with rfl | h
    · exact endsQuoted_target t
    · cases content with
      | none => cases h
      | some c =>
        rw [List.mem_singleton.mp h]
        exact endsQuoted_keyed _ _
  | delete t =>
    rw [List.mem_singleton.mp h]
    exact endsQuoted_target t
  | wait => cases h
  | _ =>
    rw [List.mem_singleton.mp h]
    exact endsQuoted_keyed _ _

/-- The text ends with its verb or with a quote. -/
theorem print_ends (x : Directive d) :
    x.arguments = [] ∧ (print x).toList = x.verb.text.toList ∨ EndsQuoted (print x) := by
  rcases List.eq_nil_or_concat x.arguments with h | ⟨as, a, h⟩
  · left
    exact ⟨h, by rw [toList_print, h]; simp⟩
  · right
    obtain ⟨cs, ha⟩ := endsQuoted_argument (x := x) (a := a) (by simp [h])
    refine ⟨x.verb.text.toList ++ ((as.map String.toList).flatMap (' ' :: ·) ++ ' ' :: cs), ?_⟩
    rw [toList_print, h]
    simp [ha]

theorem not_blank_verb (v : Verb) : ∀ c ∈ v.text.toList, isBlank c = false := by
  obtain ⟨c, w, hs, hc, hw, -⟩ := isPlainWord_verb v
  intro x hx
  rw [hs] at hx
  rcases List.mem_cons.mp hx with rfl | hx
  · exact (not_blank_of_isWordChar (isWordChar_of_isWordStart hc)).1
  · exact (not_blank_of_isWordChar (hw x hx)).1

/-- A directive is written without a blank at either end. -/
theorem solid_print (x : Directive d) : Solid (print x).toList where
  first := by
    obtain ⟨c, w, hv, hc, -⟩ := isPlainWord_verb x.verb
    exact ⟨c, _, by rw [toList_print, hv]; rfl,
      (not_blank_of_isWordChar (isWordChar_of_isWordStart hc)).1⟩
  last := by
    rcases print_ends x with ⟨-, h⟩ | ⟨cs, h⟩
    · have filled : x.verb.text.toList ≠ [] := by
        obtain ⟨c, w, hv, -⟩ := isPlainWord_verb x.verb
        rw [hv]
        exact List.cons_ne_nil c w
      rw [h]
      exact ⟨_, _, (List.dropLast_append_getLast filled).symm,
        not_blank_verb _ _ (List.getLast_mem filled)⟩
    · exact ⟨cs, '"', h, by decide⟩

theorem unfence?_print (x : Directive d) : unfence? (print x).toList = none := by
  obtain ⟨c, w, hv, hc, -⟩ := isPlainWord_verb x.verb
  have hf : fence = [Char.ofNat 96, Char.ofNat 96, Char.ofNat 96] := rfl
  have hne : Char.ofNat 96 ≠ c := by rintro rfl; revert hc; decide
  have hp : fence.isPrefixOf (print x).toList = false := by
    rw [toList_print, hv, hf, List.cons_append, List.isPrefixOf, beq_false_of_ne hne]
    rfl
  simp [unfence?, behindFence?, hp]

theorem startsWithVerb_print (x : Directive d) : startsWithVerb d (print x).toList := by
  obtain ⟨c, w, hv, hc, hw, hup⟩ := isPlainWord_verb x.verb
  have hw' : ∀ y ∈ c :: w, isWordChar y :=
    List.forall_mem_cons.mpr ⟨isWordChar_of_isWordStart hc, hw⟩
  -- behind the verb the text ends or goes on with a space
  obtain ⟨tail, ht, hend, hword⟩ : ∃ tail, (print x).toList = c :: w ++ tail ∧ EndsHere tail ∧
      endsWord tail := by
    refine ⟨_, by rw [toList_print, hv], ?_⟩
    cases x.arguments with
    | nil => exact ⟨endsHere_nil, rfl⟩
    | cons a as => exact ⟨endsHere_cons (by decide), rfl⟩
  rw [startsWithVerb, ht, takeWhile_append_of_endsHere hw' hend,
    dropWhile_append_of_endsHere hw' hend, hup, ← hv, String.ofList_toList, verb?_verb, hword]
  rfl

/-- **Nothing is cut off a canonical text.** -/
theorem body_print (x : Directive d) : body d (print x).toList = (print x).toList := by
  simp [body, (solid_print x).trimChars, unfence?_print, startsWithVerb_print]

/-! ### The round trip -/

/-- A canonical text is read as the directive that its canonical tokens write. -/
theorem parse_print_eq_ok_iff {x y : Directive d} :
    parse d (print x) = .ok y ↔ Writes x.tokens y := by
  rw [parse_eq_ok_iff_writes, body_print, tokenize_print]
  constructor
  · rintro ⟨ts, h, hw⟩; cases h; exact hw
  · intro h; exact ⟨_, rfl, h⟩

/-- A directive whose lists are filled survives being written and read. -/
theorem parse_print {x : Directive d} (h : x.Filled) : parse d (print x) = .ok x :=
  parse_print_eq_ok_iff.mpr ⟨h, Or.inl rfl⟩

/-- **Writing and reading are inverse to each other.** A directive is read back from its canonical
text exactly if none of its lists is empty; and whatever directive a text is read as has no empty
list and is read back from its canonical text. -/
theorem parse_print_iff_filled (x : Directive d) :
    (parse d (print x) = .ok x ↔ x.Filled) ∧
      ∀ (text : String) (y : Directive d), parse d text = .ok y →
        y.Filled ∧ parse d (print y) = .ok y := by
  refine ⟨⟨fun h => (parse_print_eq_ok_iff.mp h).1, parse_print⟩, fun text y h => ?_⟩
  obtain ⟨ts, -, hf, -⟩ := parse_eq_ok_iff_writes.mp h
  exact ⟨hf, parse_print hf⟩

/-- **Exactly the grammar is accepted.** A text is read as a directive if and only if the tokens of
its body write it, where the canonical tokens are those of the canonical text; every other text is
an error. -/
theorem parse_accepts_exactly_what_writes (text : String) :
    (∀ x : Directive d, parse d text = .ok x ↔
      ∃ ts, tokenize (body d text.toList) = .ok ts ∧ Writes ts x) ∧
    (∀ x : Directive d, tokenize (print x).toList = .ok x.tokens) ∧
    ((¬ ∃ ts, tokenize (body d text.toList) = .ok ts ∧ ∃ x : Directive d, Writes ts x) →
      ∃ e, parse d text = .error e) := by
  refine ⟨fun x => parse_eq_ok_iff_writes, tokenize_print, fun h => ?_⟩
  cases hp : parse d text with
  | error e => exact ⟨e, rfl⟩
  | ok x =>
    obtain ⟨ts, hts, hw⟩ := parse_eq_ok_iff_writes.mp hp
    exact absurd ⟨ts, hts, x, hw⟩ h

end Arbor.Directive
