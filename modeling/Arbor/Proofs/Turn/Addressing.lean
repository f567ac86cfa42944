import Arbor.Proofs.Directive.Layout
import Arbor.Proofs.Turn.Verbs
import Arbor.Turn.Round

/-! # Addressing a child by the line that shows it

A prompt shows each child of a manager in a line of its own, with its name between quotes as it is.
What a directive says between quotes is read with its escapes, and the name of a target is taken
without the blanks around it. So a child is addressed by its line exactly if its name is *legible*:
it reads back as itself.

* `Legible`: no quote and no escape in the name, and no blank at its ends.
* `Reaches`: a text hands a prompt to one child, and does nothing else.
* `first_string_unique`: where a text is read as one order, the name is read up to the quote behind
  it.
* `reaches_iff_legible`: the exact condition, for every prompt. -/

namespace Arbor.Turn

open Directive Act Text

variable {project : Project} {name prompt : String} {link : ChildLink} {d : Desk}

/-- The name reads back as itself, between quotes and as the name of a target. -/
structure Legible (name : String) : Prop where
  quoted : Decodes name.toList name.toList
  bare : bareName name = name

theorem legible_iff : Legible name ↔
    readString (name.toList ++ ['"']) = some (name.toList, []) ∧ bareName name = name := by
  constructor
  · rintro ⟨quoted, bare⟩
    exact ⟨readString_of_decodes quoted [], bare⟩
  · rintro ⟨hread, bare⟩
    obtain ⟨raw, hraw, quoted⟩ := decodes_of_readString hread
    obtain rfl : name.toList = raw := (List.append_left_inj ['"']).mp hraw
    exact ⟨quoted, bare⟩

instance : DecidablePred Legible := fun _ => decidable_of_iff _ legible_iff.symm

/-- The text that hands a prompt to the child of a line. -/
def orderText (line prompt : String) : String :=
  "DELEGATE " ++ line ++ " " ++ printKeyed .prompt prompt

/-- **The directive hands a prompt to a child and does nothing else.** -/
structure Handed (project : Project) (d : Desk) (x : Directive .manager) (child : AgentId)
    (prompt : String) : Prop where
  succeeds : ∃ step, ((perform project x).run d).1 = .ok step
  effects : ∃ task : Task, task.text = prompt ∧ (interpret project x d).1 = [.delegate child task]
  recorded : (interpret project x d).2.agent.delegated = (d.agent.delegate child prompt).delegated

/-- The text is read, and what is read hands the prompt to the child. -/
def Reaches (project : Project) (d : Desk) (text : String) (child : AgentId) (prompt : String) :
    Prop :=
  ∃ x, parse .manager text = .ok x ∧ Handed project d x child prompt

/-! ### Two strings in a text -/

theorem quote_notMem_of_blank {gap : List Char} (blank : Blank gap) : '"' ∉ gap := fun h =>
  absurd (blank _ h) (by decide)

/-- What can stand between two strings: it has no quote, and does not end with a backslash, which
would hide the next one. -/
structure Between (cs : List Char) : Prop where
  noQuote : '"' ∉ cs
  ends : ∃ front c, cs = front ++ [c] ∧ c ≠ '\\'

theorem Between.not_decodes {cs : List Char} (h : Between cs) (front : List Char)
    {back s : List Char} : ¬ Decodes (front ++ (cs ++ '"' :: back)) s := by
  obtain ⟨init, c, rfl, hc⟩ := h.ends
  intro decodes
  have hsplit : front ++ (init ++ [c] ++ '"' :: back) = front ++ init ++ c :: '"' :: back := by simp
  rw [hsplit] at decodes
  exact hc decodes.backslash

/-- The first quote behind what has none. -/
theorem first_quote {cs back cs' back' : List Char} (noQuote : '"' ∉ cs)
    (h : cs ++ '"' :: back = cs' ++ '"' :: back') :
    cs' = cs ∧ back = back' ∨ ∃ more, cs' = cs ++ '"' :: more ∧ back = more ++ '"' :: back' := by
  rcases List.append_eq_append_iff.mp h with ⟨more, rfl, hmore⟩ | ⟨more, rfl, hmore⟩
  · cases more with
    | nil => exact Or.inl ⟨List.append_nil _, (List.cons.inj hmore).2⟩
    | cons c more =>
      obtain ⟨rfl, hback⟩ := List.cons.inj hmore
      exact Or.inr ⟨more, rfl, hback⟩
  · cases more with
    | nil => exact Or.inl ⟨(List.append_nil _).symm, (List.cons.inj hmore).2.symm⟩
    | cons c more =>
      obtain ⟨rfl, -⟩ := List.cons.inj hmore
      exact absurd (by simp) noQuote

/-- **Two strings and what stands between them are told apart in one way only,** also where the first
is not known to end at its quote. -/
theorem first_string_unique {raw between raw' raw₁ between₁ raw₁' s p q : List Char}
    (h : raw ++ '"' :: (between ++ '"' :: raw') = raw₁ ++ '"' :: (between₁ ++ '"' :: raw₁'))
    (mid : Between between) (last : Decodes raw' p) (first₁ : Decodes raw₁ s)
    (mid₁ : Between between₁) (last₁ : Decodes raw₁' q) : raw₁ = raw := by
  rcases List.append_eq_append_iff.mp h with ⟨more, rfl, hmore⟩ | ⟨more, rfl, hmore⟩
  · cases more with
    | nil => exact List.append_nil _
    | cons c more =>
      -- the string that is read goes on behind the quote
      obtain ⟨rfl, htail⟩ := List.cons.inj hmore
      rcases first_quote mid.noQuote htail with ⟨rfl, rfl⟩ | ⟨back, rfl, -⟩
      · exact absurd last (mid₁.not_decodes [])
      · have hsplit : raw ++ '"' :: (between ++ '"' :: back) =
            raw ++ ['"'] ++ (between ++ '"' :: back) := by simp
        rw [hsplit] at first₁
        exact absurd first₁ (mid.not_decodes _)
  · cases more with
    | nil => exact (List.append_nil _).symm
    | cons c more =>
      -- it ends before the quote, and the last string holds what stands between them
      obtain ⟨rfl, htail⟩ := List.cons.inj hmore
      rcases first_quote mid₁.noQuote htail with ⟨rfl, rfl⟩ | ⟨back, -, rfl⟩
      · exact absurd last₁ (mid.not_decodes [])
      · have hsplit : back ++ '"' :: (between ++ '"' :: raw') =
            back ++ ['"'] ++ (between ++ '"' :: raw') := by simp
        rw [hsplit] at last₁
        exact absurd last₁ (mid.not_decodes _)

/-- A word and an equals sign can stand between two strings. -/
theorem between_keyed {word : String} (noQuote : '"' ∉ word.toList) {gap w gap' gap'' : List Char}
    (blank : Blank gap) (same : upperChars w = word.toList) (blank' : Blank gap')
    (blank'' : Blank gap'') :
    Between (gap ++ (w ++ (gap' ++ '=' :: gap''))) := by
  constructor
  · have hw : '"' ∉ w := fun h => noQuote (same ▸ List.mem_map_of_mem (f := Char.toUpper) h)
    simp only [List.mem_append, List.mem_cons, not_or]
    exact ⟨quote_notMem_of_blank blank, hw, quote_notMem_of_blank blank', by decide,
      quote_notMem_of_blank blank''⟩
  · rcases List.eq_nil_or_concat gap'' with rfl | ⟨init, c, rfl⟩
    · exact ⟨gap ++ (w ++ gap'), '=', by simp, by decide⟩
    · refine ⟨gap ++ (w ++ (gap' ++ '=' :: init)), c, by simp, ?_⟩
      rintro rfl
      have hblank := blank'' '\\' (by simp)
      exact absurd hblank (by decide)

/-- Two strings with a word and an equals sign between them, where nothing is behind the second. -/
theorem strings_of_scan {total : Nat} {cs : List Char} {s q word : String}
    (noQuote : '"' ∉ word.toList)
    (h : scan total ('"' :: cs ++ ['"']) = .ok [.str s, .word word, .equals, .str q]) :
    ∃ raw between raw', cs = raw ++ '"' :: (between ++ '"' :: raw') ∧
      Decodes raw s.toList ∧ Between between ∧ Decodes raw' q.toList := by
  obtain ⟨gap₁, w₁, rest₁, htext, blank₁, written₁, h⟩ := written_of_scan h
  obtain ⟨gap₂, w₂, rest₂, rfl, blank₂, written₂, h⟩ := written_of_scan h
  obtain ⟨gap₃, w₃, rest₃, rfl, blank₃, written₃, h⟩ := written_of_scan h
  obtain ⟨gap₄, w₄, rest₄, rfl, blank₄, written₄, h⟩ := written_of_scan h
  have blank₅ := blank_of_scan h
  cases written₁ with
  | @str _ raw decodes =>
  cases written₂ with
  | @word _ _ same =>
  cases written₃ with
  | equals =>
  cases written₄ with
  | @str _ raw' decodes' =>
  -- the text starts and ends with a quote, so there are no blanks in front or behind
  obtain rfl : gap₁ = [] := by
    cases gap₁ with
    | nil => rfl
    | cons c gap =>
      obtain ⟨rfl, -⟩ := List.cons.inj htext
      exact absurd List.mem_cons_self (quote_notMem_of_blank blank₁)
  obtain rfl : rest₄ = [] := by
    rcases List.eq_nil_or_concat rest₄ with hnil | ⟨init, c, rfl⟩
    · exact hnil
    · have hlast := congrArg (fun l : List Char => l.reverse.head?) htext
      obtain rfl : '"' = c := by simpa using hlast
      exact absurd (by simp) (quote_notMem_of_blank blank₅)
  refine ⟨raw, _, raw', ?_, decodes, between_keyed noQuote blank₂ same blank₃ blank₄, decodes'⟩
  exact (List.append_left_inj ['"']).mp (by simpa using htext)

/-! ### Reading the text -/

/-- The target that a line shows, whose name is `shown` when it is read. -/
def targetOf (shown : String) (link : ChildLink) : Target where
  name := shown
  isFolder := decide (link.kind = .manager)

theorem noun_targetOf (shown : String) (link : ChildLink) :
    (targetOf shown link).noun = if link.kind = .manager then "FOLDER" else "FILE" := by
  unfold Target.noun targetOf
  by_cases h : link.kind = .manager <;> simp [h]

/-- The text of an order, with the name as it is. -/
theorem toList_orderText (name prompt : String) (link : ChildLink) :
    (orderText (childLine name link) prompt).toList =
      Verb.delegate.text.toList ++ ' ' :: ((targetOf name link).noun.toList ++ ' ' :: '"' ::
        (name.toList ++ '"' :: (' ' :: (Key.prompt.text.toList ++ ['=']) ++
          '"' :: (prompt.toList.flatMap escape ++ ['"'])))) := by
  rw [noun_targetOf]
  have hquote : (quote prompt).toList = '"' :: (prompt.toList.flatMap escape ++ ['"']) := by
    rw [quote, String.toList_ofList, quoteChars]
  simp only [orderText, childLine, printKeyed, String.toList_append, hquote]
  simp [Verb.text, Key.text]

theorem laidOut_order {shown : String} (quoted : Decodes name.toList shown.toList) :
    LaidOut (Directive.assign [(targetOf shown link, prompt)]).tokens
      (orderText (childLine name link) prompt).toList := by
  have laidOut : LaidOut (Directive.assign [(targetOf shown link, prompt)]).tokens
      (Verb.delegate.text.toList ++ ([' '] ++ ((targetOf name link).noun.toList ++ ([' '] ++
        ('"' :: (name.toList ++ ['"']) ++ ([' '] ++ (Key.prompt.text.toList ++ ([] ++ (['='] ++
          ([] ++ quoteChars prompt.toList)))))))))) := by
    have hnoun : (targetOf name link).noun = (targetOf shown link).noun := rfl
    have hspace : Blank [' '] := blank_singleton (by decide)
    rw [hnoun]
    exact .cons (.word (isPlainWord_verb .delegate).upper) hspace (by simp)
      (.cons (.word (isPlainWord_noun _).upper) hspace (by simp)
        (.cons (.str quoted) hspace (by simp)
          (.cons (.word (isPlainWord_key .prompt).upper) blank_nil (by simp [Token.isWord])
            (.cons .equals blank_nil (by simp [Token.isWord])
              (.last (.str (decodes_escaped _)))))))
  rw [toList_orderText]
  simpa [quoteChars] using laidOut

/-- **The text of an order is read** as an order to whatever the name between the quotes stands
for. -/
theorem parse_orderText {shown : String} (quoted : Decodes name.toList shown.toList) :
    parse .manager (orderText (childLine name link) prompt) =
      .ok (.assign [(targetOf shown link, prompt)]) := by
  exact parse_reply (by simp [Filled]) (.bare (laidOut_order quoted).composed)

theorem unfenced_orderText (name prompt : String) (link : ChildLink) :
    Unfenced (orderText (childLine name link) prompt).toList := by
  have hverb : Unfenced Verb.delegate.text.toList :=
    unfenced_of_wordChars (by decide) (List.all_eq_true.mp (by decide))
  have hquoted := (Token.Written.str (decodes_escaped prompt.toList)).unfenced nofun
  have h := hverb.append (' ' :: ((targetOf name link).noun.toList ++ ' ' :: '"' ::
    (name.toList ++ '"' :: ' ' :: (Key.prompt.text.toList ++ ['='])))) hquoted
  rw [toList_orderText]
  simpa using h

theorem opensWithVerb_orderText (name prompt : String) (link : ChildLink) :
    OpensWithVerb .manager (orderText (childLine name link) prompt).toList := by
  rw [toList_orderText]
  exact ⟨.delegate, by decide, _, _, rfl, (isPlainWord_verb .delegate).upper, rfl⟩

/-- **Where the text is read as one order,** the name that is shown stands for the one that is
read. -/
theorem decodes_of_parse {t : Target} {q : String}
    (h : parse .manager (orderText (childLine name link) prompt) = .ok (.assign [(t, q)])) :
    Decodes name.toList t.name.toList := by
  obtain ⟨ts, htokens, -, hts⟩ := parse_eq_ok_iff_writes.mp h
  obtain rfl := hts.resolve_right (by simp)
  rw [body_of_unfenced (unfenced_orderText name prompt link)
    (opensWithVerb_orderText name prompt link), tokenize] at htokens
  generalize Text.byteCount _ = total at htokens
  rw [toList_orderText, (isPlainWord_verb .delegate).scan] at htokens
  -- behind the verb and the noun there are two strings with the key between them
  obtain ⟨ts, htokens, heq⟩ := map_eq_ok.mp htokens
  obtain ⟨-, rfl⟩ := List.cons.inj heq
  rw [(isPlainWord_noun _).scan] at htokens
  obtain ⟨ts, htokens, heq⟩ := map_eq_ok.mp htokens
  obtain ⟨-, rfl⟩ := List.cons.inj heq
  have hscan : scan total ('"' :: (name.toList ++ '"' :: (' ' :: (Key.prompt.text.toList ++ ['=']) ++
      '"' :: prompt.toList.flatMap escape)) ++ ['"']) =
        .ok [.str t.name, .word Key.prompt.text, .equals, .str q] := by
    simpa [keyedTokens] using htokens
  obtain ⟨raw, between, raw', htext, quoted, hbetween, quoted'⟩ := strings_of_scan (by decide) hscan
  have hmid : Between (' ' :: (Key.prompt.text.toList ++ ['='])) :=
    ⟨by decide, ' ' :: Key.prompt.text.toList, '=', rfl, by decide⟩
  obtain rfl := first_string_unique htext hmid (decodes_escaped _) quoted hbetween quoted'
  exact quoted

theorem assign_of_parse {x : Directive .manager}
    (h : parse .manager (orderText (childLine name link) prompt) = .ok x) :
    ∃ assignments, x = .assign assignments := by
  obtain ⟨ts, htokens, -, hts⟩ := parse_eq_ok_iff_writes.mp h
  rw [body_of_unfenced (unfenced_orderText name prompt link)
    (opensWithVerb_orderText name prompt link), tokenize, toList_orderText,
    (isPlainWord_verb .delegate).scan] at htokens
  obtain ⟨more, -, rfl⟩ := map_eq_ok.mp htokens
  have hverb : x.verb.text = Verb.delegate.text := by
    rcases hts with hts | ⟨-, hts⟩
    · exact (Token.word.inj (List.cons.inj hts).1).symm
    · exact absurd (Token.word.inj (List.cons.inj hts).1) (by decide)
  cases x with
  | assign assignments => exact ⟨assignments, rfl⟩
  | _ => exact absurd hverb (by simp [verb, Verb.text])

/-! ### Carrying it out -/

theorem childOf_eq_ok_iff {a : Agent} {t : Target} {shown : String} {child : AgentId} :
    childOf a t = .ok (shown, child) ↔ bareName t.name = shown ∧
      ∃ link, a.children.get? shown = some link ∧ link.id = child ∧
        decide (link.kind = .manager) = t.isFolder := by
  unfold childOf
  simp only
  cases hget : a.children.get? (bareName t.name) with
  | none =>
    constructor
    · intro h
      cases h
    · rintro ⟨rfl, link, hlink, -⟩
      rw [hget] at hlink
      cases hlink
  | some link =>
    simp only
    constructor
    · intro h
      split at h
      · cases h
      · next hfolder =>
        cases h
        exact ⟨rfl, link, hget, rfl, by simpa using hfolder⟩
    · rintro ⟨rfl, link', hlink, rfl, hfolder⟩
      obtain rfl := Option.some.inj (hget.symm.trans hlink)
      rw [if_neg (by simp [hfolder])]

/-- **A list of orders hands one prompt to one child** exactly if it is one order, whose target is
that child. -/
theorem handed_iff {assignments : List (Target × String)} {child : AgentId} :
    Handed project d (.assign assignments) child prompt ↔
      ∃ t shown, assignments = [(t, prompt)] ∧ childOf d.agent t = .ok (shown, child) := by
  constructor
  · rintro ⟨-, ⟨task, rfl, effects⟩, -⟩
    have heffects : effectsOf ((assign assignments).run d).1 = [.delegate child task] := effects
    rcases assign_cases assignments d with ⟨e, h⟩ | ⟨children, note, hchildren, h⟩
    · rw [h] at heffects
      cases heffects
    · rw [h] at heffects
      match assignments with
      | [] =>
        obtain rfl := Except.ok.inj hchildren
        cases heffects
      | [(t, q)] =>
        rw [List.mapM_cons] at hchildren
        obtain ⟨found, hfound, hchildren⟩ := bind_eq_ok.mp hchildren
        obtain ⟨none, hnone, hchildren⟩ := bind_eq_ok.mp hchildren
        obtain rfl := Except.ok.inj hnone
        obtain rfl := Except.ok.inj hchildren
        cases heffects
        exact ⟨t, found.1, rfl, hfound⟩
      | a :: b :: more =>
        rw [List.mapM_cons] at hchildren
        obtain ⟨found, -, hchildren⟩ := bind_eq_ok.mp hchildren
        obtain ⟨others, hothers, hchildren⟩ := bind_eq_ok.mp hchildren
        rw [List.mapM_cons] at hothers
        obtain ⟨found', -, hothers⟩ := bind_eq_ok.mp hothers
        obtain ⟨rest, -, hothers⟩ := bind_eq_ok.mp hothers
        obtain rfl := Except.ok.inj hothers
        obtain rfl := Except.ok.inj hchildren
        cases heffects
  · rintro ⟨t, shown, rfl, hchild⟩
    have hrun : (perform project (.assign [(t, prompt)])).run d =
        (.ok ⟨.succeeded ("delegated to " ++ shown),
          [.delegate child ⟨⟨d.world.nextNumber⟩, prompt⟩]⟩, handedOut [(child, prompt)] d) := by
      simp only [perform, assign, run_bind, run_get, run_lift, handOut_run, List.mapM_cons, hchild]
      rfl
    have hinterpret : interpret project (.assign [(t, prompt)]) d =
        ([.delegate child ⟨⟨d.world.nextNumber⟩, prompt⟩], { handedOut [(child, prompt)] d with
          agent := (handedOut [(child, prompt)] d).agent.enqueue
            ("DELEGATE succeeded: delegated to " ++ shown) }) := by
      unfold interpret
      rw [hrun]
      rfl
    exact ⟨⟨_, congrArg Prod.fst hrun⟩, ⟨_, rfl, congrArg Prod.fst hinterpret⟩, by
      rw [hinterpret]
      rfl⟩

/-! ### Names -/

theorem bareName_sublist (name : String) : (bareName name).toList.Sublist name.toList := by
  rw [bareName, String.toList_ofList]
  have htrim : (trimChars name.toList).Sublist name.toList := by
    rw [trimChars, trimEndChars, trimStartChars, ← List.reverse_sublist, List.reverse_reverse]
    exact (List.dropWhile_sublist _).trans (List.dropWhile_sublist _).reverse
  rw [← List.reverse_sublist, List.reverse_reverse]
  exact (List.dropWhile_sublist _).trans htrim.reverse

/-- Reading a name and cutting off what is around it only shortens it, so a name that comes back has
not changed on the way. -/
theorem legible_of_bareName {shown : String} (quoted : Decodes name.toList shown.toList)
    (bare : bareName shown = name) : Legible name := by
  have hlength := quoted.length_le
  have hsame : name.toList = shown.toList := by
    have hsub := bareName_sublist shown
    rw [bare] at hsub
    exact hsub.eq_of_length_le hlength
  obtain rfl := String.toList_inj.mp hsame
  exact ⟨quoted, bare⟩

theorem decodes_self {cs : List Char} (noQuote : '"' ∉ cs) (noEscape : '\\' ∉ cs) :
    Decodes cs cs := by
  induction cs with
  | nil => exact .nil
  | cons c cs ih =>
    rw [List.mem_cons, not_or] at noQuote noEscape
    exact .plain (Ne.symm noQuote.1) (Ne.symm noEscape.1) (ih noQuote.2 noEscape.2)

/-- **The names that are legible at sight:** without quotes and backslashes, and with neither a blank
nor a slash at an end. -/
theorem legible_of_solid (solid : Solid name.toList) (noQuote : '"' ∉ name.toList)
    (noEscape : '\\' ∉ name.toList) (noSlash : name.toList.getLast? ≠ some '/') :
    Legible name := by
  refine ⟨decodes_self noQuote noEscape, ?_⟩
  have hlast : name.toList.reverse.dropWhile (· == '/') = name.toList.reverse := by
    obtain ⟨init, c, hname, -⟩ := solid.last
    have hc : c ≠ '/' := by simpa [hname] using noSlash
    rw [hname, List.reverse_append, List.reverse_singleton, List.singleton_append,
      List.dropWhile_cons_of_neg (by simpa using hc)]
  rw [bareName, solid.trimChars, hlast, List.reverse_reverse, String.ofList_toList]

/-- **A child is addressed by the line that shows it** exactly if its name reads back as itself. -/
theorem reaches_iff_legible (project : Project) (prompt : String)
    (own : d.agent.children.get? name = some link)
    (apart : ∀ other link', d.agent.children.get? other = some link' → link'.id = link.id →
      other = name) :
    Reaches project d (orderText (childLine name link) prompt) link.id prompt ↔ Legible name := by
  constructor
  · rintro ⟨x, hparse, handed⟩
    obtain ⟨assignments, rfl⟩ := assign_of_parse hparse
    obtain ⟨t, shown, rfl, hchild⟩ := handed_iff.mp handed
    obtain ⟨bare, link', hget, hid, -⟩ := childOf_eq_ok_iff.mp hchild
    obtain rfl := apart _ _ hget hid
    exact legible_of_bareName (decodes_of_parse hparse) bare
  · rintro ⟨quoted, bare⟩
    refine ⟨_, parse_orderText quoted, handed_iff.mpr ⟨_, name, rfl, ?_⟩⟩
    exact childOf_eq_ok_iff.mpr ⟨bare, link, own, rfl, rfl⟩

end Arbor.Turn
