import Arbor.Directive.Parse
import Arbor.Proofs.Directive.Lexing

/-! # The grammar of directives

Every directive has one list of tokens that its canonical text consists of (`tokens`). Reading
undoes writing stage by stage: `items` undoes the tokens of arguments, each function of `Shape`
undoes the items of its verb, and `ofTokens` undoes the whole.

* `items_eq_ok_iff`: the items of a list of tokens are those whose tokens, put together, are the
  list.
* `Shape.targets_eq_ok_iff`, … `Shape.targetWithContent_eq_ok_iff`: one exact condition for each
  shape of arguments.
* `parse_eq_ok_iff_writes`: a text is read as a directive exactly if the tokens of its body *write*
  that directive. -/

namespace Arbor.Directive

open Arbor.Text

/-! ### The tokens of a directive -/

/-- The tokens of a target. -/
def Target.tokens (t : Target) : List Token := [.word t.noun, .str t.name]

/-- The tokens of a keyed value. -/
def keyedTokens (key : Key) (value : String) : List Token := [.word key.text, .equals, .str value]

/-- The tokens of the order of one helper. -/
def HelperOrder.tokens (o : HelperOrder) : List Token :=
  .word o.kind.text :: keyedTokens .prompt o.prompt

/-- The tokens of each argument. -/
def argumentTokens {d : Dialect} : Directive d → List (List Token)
  | .read targets => targets.map Target.tokens
  | .run command => [keyedTokens .command command]
  | .spawn orders => orders.map HelperOrder.tokens
  | .wait => []
  | .finish report => if report.isEmpty then [] else [keyedTokens .prompt report]
  | .change content => [keyedTokens .content content]
  | .create target content => target.tokens :: (content.map (keyedTokens .content)).toList
  | .delete target => [target.tokens]
  | .assign assignments => assignments.map fun a => a.1.tokens ++ keyedTokens .prompt a.2
  | .updateReadme content => [keyedTokens .content content]
  | .delegate prompt => [keyedTokens .prompt prompt]
  | .updateDocumentation content => [keyedTokens .content content]
  | .message prompt => [keyedTokens .prompt prompt]

/-- **The canonical tokens of a directive.** -/
def tokens {d : Dialect} (x : Directive d) : List Token :=
  .word x.verb.text :: x.argumentTokens.flatten

/-- The lists of a directive are not empty. -/
def Filled {d : Dialect} : Directive d → Prop
  | .read targets => targets ≠ []
  | .spawn orders => orders ≠ []
  | .assign assignments => assignments ≠ []
  | _ => True

instance {d : Dialect} (x : Directive d) : Decidable x.Filled := by
  unfold Filled; split <;> infer_instance

/-- The longer form of an empty report. -/
def emptyReportTokens : List Token := .word Verb.finish.text :: keyedTokens .prompt ""

/-- **The tokens write the directive:** they are its canonical ones, or the longer form of an empty
report. A directive with an empty list cannot be written. -/
def Writes {d : Dialect} (ts : List Token) (x : Directive d) : Prop :=
  x.Filled ∧ (ts = x.tokens ∨ x = .finish "" ∧ ts = emptyReportTokens)

/-! ### Tokens and items -/

/-- The tokens of an item. -/
def Item.tokens : Item → List Token
  | .target t => t.tokens
  | .keyed key value => keyedTokens key value
  | .word text => [.word text]

theorem Key.ofText?_eq_some {word : String} {key : Key} :
    Key.ofText? word = some key ↔ word = key.text := by
  constructor
  · intro h
    unfold Key.ofText? at h
    split_ifs at h with h1 h2 h3 <;> cases h
    · exact h1
    · exact h2
    · exact h3
  · rintro rfl
    cases key <;> rfl

theorem isNoun_noun (t : Target) : isNoun t.noun := by
  unfold Target.noun; split <;> rfl

theorem isFolder_noun (t : Target) : (t.noun == "FOLDER") = t.isFolder := by
  unfold Target.noun; split <;> simp_all

theorem noun_of_isNoun {word : String} (h : isNoun word) (value : String) :
    Target.noun { name := value, isFolder := word == "FOLDER" } = word := by
  simp only [isNoun, Bool.or_eq_true, beq_iff_eq] at h
  rcases h with rfl | rfl <;> rfl

theorem isNoun_key (key : Key) : isNoun key.text = false := by
  cases key <;> rfl

theorem tokens_of_items {ts : List Token} {its : List Item} (h : items ts = .ok its) :
    ts = its.flatMap Item.tokens := by
  fun_induction items ts generalizing its with
  | case1 => cases h; rfl
  | case2 => cases h
  | case3 => cases h
  | case4 => cases h
  | case5 => cases h; rfl
  | case6 word value rest hn ih =>
    obtain ⟨more, hm, h⟩ := bind_eq_ok.mp h
    cases h
    simp [Item.tokens, Target.tokens, noun_of_isNoun hn, ← ih hm]
  | case7 => cases h
  | case8 => cases h
  | case9 => cases h
  | case10 word hn key value rest hk ih =>
    obtain ⟨more, hm, h⟩ := bind_eq_ok.mp h
    cases h
    simp [Item.tokens, keyedTokens, Key.ofText?_eq_some.mp hk, ← ih hm]
  | case11 => cases h
  | case12 => cases h
  | case13 word next rest hn ih =>
    obtain ⟨more, hm, h⟩ := bind_eq_ok.mp h
    cases h
    simp [Item.tokens, ← ih hm]

/-- What follows a bare word among the tokens of items is another word. -/
theorem tokens_cons_eq (it : Item) (its : List Item) :
    ∃ w ts, (it :: its).flatMap Item.tokens = .word w :: ts := by
  cases it <;> exact ⟨_, _, rfl⟩

theorem items_of_tokens {its : List Item} (h : ∀ w, Item.word w ∈ its → isNoun w = false) :
    items (its.flatMap Item.tokens) = .ok its := by
  induction its with
  | nil => rfl
  | cons it its ih =>
    have ih := ih fun w hw => h w (List.mem_cons_of_mem _ hw)
    cases it with
    | target t =>
      rw [List.flatMap_cons, Item.tokens, Target.tokens, List.cons_append, List.cons_append,
        List.nil_append, items, if_pos (isNoun_noun t), ih, isFolder_noun]
      rfl
    | keyed key value =>
      have hk : Key.ofText? key.text = some key := Key.ofText?_eq_some.mpr rfl
      rw [List.flatMap_cons, Item.tokens, keyedTokens, List.cons_append, List.cons_append,
        List.cons_append, List.nil_append]
      unfold items
      simp only [isNoun_key, hk, ih]
      rfl
    | word w =>
      have hw : ¬ isNoun w = true := by simp [h w (List.mem_cons_self ..)]
      rw [List.flatMap_cons, Item.tokens, List.singleton_append]
      cases its with
      | nil => rw [List.flatMap_nil, items, if_neg hw]
      | cons it' its =>
        obtain ⟨w', ts, hts⟩ := tokens_cons_eq it' its
        rw [hts] at ih ⊢
        rw [items, if_neg hw, ih]
        rfl

/-- **The items of tokens** are those that the tokens consist of, where no bare word is a noun. -/
theorem items_eq_ok_iff {ts : List Token} {its : List Item}
    (h : ∀ w, Item.word w ∈ its → isNoun w = false) :
    items ts = .ok its ↔ ts = its.flatMap Item.tokens :=
  ⟨tokens_of_items, fun he => he ▸ items_of_tokens h⟩

/-! ### The shapes of arguments -/

/-- The items of an assignment. -/
def assignmentItems (a : Target × String) : List Item := [.target a.1, .keyed .prompt a.2]

/-- The items of the order of one helper. -/
def HelperOrder.items (o : HelperOrder) : List Item := [.word o.kind.text, .keyed .prompt o.prompt]

namespace Shape

variable {verb : Verb} {its : List Item}

theorem nothing_eq_ok_iff {u : Unit} : nothing verb its = .ok u ↔ its = [] := by
  cases its with
  | nil => simp [nothing]
  | cons it its => simp [nothing]

theorem allTargets_eq_ok_iff {ts : List Target} :
    allTargets verb its = .ok ts ↔ its = ts.map .target := by
  fun_induction allTargets verb its generalizing ts with
  | case1 => cases ts <;> simp
  | case2 t rest ih =>
    rw [bind_eq_ok]
    constructor
    · rintro ⟨more, hm, h⟩
      cases h
      rw [List.map_cons, ih.mp hm]
    · intro h
      cases ts with
      | nil => simp at h
      | cons t' ts =>
        obtain ⟨rfl, hr⟩ : t = t' ∧ rest = ts.map .target := by simpa using h
        exact ⟨ts, ih.mpr hr, rfl⟩
  | case3 it rest hne =>
    constructor
    · intro h; cases h
    · intro h
      cases ts with
      | nil => simp at h
      | cons t ts =>
        rw [List.map_cons, List.cons.injEq] at h
        exact absurd h.1 (hne t)

/-- A list that must not be empty is read as `f` reads it. -/
theorem nonempty_eq_ok_iff {α : Type} {e : ParseError} {f : List Item → Except ParseError (List α)}
    {enc : List α → List Item} {xs : List α} (hf : f its = .ok xs ↔ its = enc xs)
    (henc : enc xs = [] ↔ xs = []) :
    (if its.isEmpty then .error e else f its) = .ok xs ↔ xs ≠ [] ∧ its = enc xs := by
  split_ifs with h
  · obtain rfl := List.isEmpty_iff.mp h
    constructor
    · intro h; cases h
    · rintro ⟨hne, h⟩; exact absurd (henc.mp h.symm) hne
  · rw [hf]
    refine ⟨fun he => ⟨fun hx => h ?_, he⟩, And.right⟩
    rw [he, henc.mpr hx]
    rfl

theorem targets_eq_ok_iff {ts : List Target} :
    targets verb its = .ok ts ↔ ts ≠ [] ∧ its = ts.map .target :=
  nonempty_eq_ok_iff allTargets_eq_ok_iff (by simp)

theorem oneTarget_eq_ok_iff {t : Target} : oneTarget verb its = .ok t ↔ its = [.target t] := by
  unfold oneTarget
  rw [bind_eq_ok]
  constructor
  · rintro ⟨ts, hts, h⟩
    obtain ⟨-, rfl⟩ := targets_eq_ok_iff.mp hts
    split at h
    · cases h; rfl
    · cases h
    · cases h
  · rintro rfl
    exact ⟨[t], targets_eq_ok_iff.mpr ⟨by simp, rfl⟩, rfl⟩

theorem optionalKeyed_eq_ok_iff {key : Key} {o : Option String} :
    optionalKeyed verb key its = .ok o ↔ its = (o.map (.keyed key)).toList := by
  constructor
  · intro h
    unfold optionalKeyed at h
    split at h
    · cases h; rfl
    · next k value rest =>
      split_ifs at h with hk
      subst hk
      split at h
      · cases h; rfl
      · cases h
    · cases h
  · rintro rfl
    cases o with
    | none => rfl
    | some value => simp [optionalKeyed]

theorem keyed_eq_ok_iff {key : Key} {value : String} :
    keyed verb key its = .ok value ↔ its = [.keyed key value] := by
  unfold keyed
  rw [bind_eq_ok]
  constructor
  · rintro ⟨o, ho, h⟩
    rw [optionalKeyed_eq_ok_iff] at ho
    cases o with
    | none => cases h
    | some v => cases h; exact ho
  · rintro rfl
    exact ⟨some value, optionalKeyed_eq_ok_iff.mpr rfl, rfl⟩

/-- A list that is made of pairs starts with the first of a pair, and the second is next. -/
theorem cons_eq_flatMap_pairs {α : Type} {pair : α → List Item} {first second : α → Item}
    (hpair : ∀ a, pair a = [first a, second a]) {it : Item} {rest : List Item} {as : List α} :
    it :: rest = as.flatMap pair ↔
      ∃ a more, as = a :: more ∧ it = first a ∧ rest = second a :: more.flatMap pair := by
  cases as with
  | nil => simp
  | cons a as =>
    rw [List.flatMap_cons, hpair, List.cons_append, List.cons_append, List.nil_append,
      List.cons.injEq]
    constructor
    · rintro ⟨hit, hrest⟩
      exact ⟨a, as, rfl, hit, hrest⟩
    · rintro ⟨a', more, h, hit, hrest⟩
      cases h
      exact ⟨hit, hrest⟩

theorem cons_eq_assignmentItems {it : Item} {rest : List Item} {as : List (Target × String)} :
    it :: rest = as.flatMap assignmentItems ↔ ∃ a more, as = a :: more ∧ it = .target a.1 ∧
      rest = .keyed .prompt a.2 :: more.flatMap assignmentItems :=
  cons_eq_flatMap_pairs fun _ => rfl

theorem allAssignments_eq_ok_iff {as : List (Target × String)} :
    allAssignments verb its = .ok as ↔ its = as.flatMap assignmentItems := by
  fun_induction allAssignments verb its generalizing as with
  | case1 => cases as <;> simp [assignmentItems]
  | case2 t p rest ih =>
    rw [bind_eq_ok, cons_eq_assignmentItems]
    constructor
    · rintro ⟨more, hm, h⟩
      cases h
      exact ⟨(t, p), more, rfl, rfl, by rw [ih.mp hm]⟩
    · rintro ⟨a, more, rfl, ht, hr⟩
      cases ht
      cases hr
      exact ⟨more, ih.mpr rfl, rfl⟩
  | case3 t rest hne =>
    rw [cons_eq_assignmentItems]
    constructor
    · intro h; cases h
    · rintro ⟨a, more, -, -, hr⟩
      exact absurd hr (hne _ _)
  | case4 it rest hne hnt =>
    rw [cons_eq_assignmentItems]
    constructor
    · intro h; cases h
    · rintro ⟨a, more, -, ht, -⟩
      exact absurd ht (hnt _)

theorem assignments_eq_ok_iff {as : List (Target × String)} :
    assignments verb its = .ok as ↔ as ≠ [] ∧ its = as.flatMap assignmentItems :=
  nonempty_eq_ok_iff allAssignments_eq_ok_iff (by cases as <;> simp [assignmentItems])

/-- A word in upper case that names a helper kind is the word of that kind. -/
theorem ofText?_eq_some_iff {w : String} (hw : upper w = w) {kind : HelperKind} :
    HelperKind.ofText? w = some kind ↔ w = kind.text := by
  cases kind
  simp [HelperKind.ofText?, HelperKind.text, hw]

theorem cons_eq_orderItems {it : Item} {rest : List Item} {os : List HelperOrder} :
    it :: rest = os.flatMap HelperOrder.items ↔ ∃ o more, os = o :: more ∧ it = .word o.kind.text ∧
      rest = .keyed .prompt o.prompt :: more.flatMap HelperOrder.items :=
  cons_eq_flatMap_pairs fun _ => rfl

theorem allOrders_eq_ok_iff (hup : ∀ w, Item.word w ∈ its → upper w = w)
    {os : List HelperOrder} : allOrders verb its = .ok os ↔ its = os.flatMap HelperOrder.items := by
  fun_induction allOrders verb its generalizing os with
  | case1 => cases os <;> simp [HelperOrder.items]
  | case2 word rest hk =>
    rw [cons_eq_orderItems]
    constructor
    · intro h; cases h
    · rintro ⟨o, more, -, hw, -⟩
      have hkind := (ofText?_eq_some_iff (hup word List.mem_cons_self)).mpr (Item.word.inj hw)
      rw [hkind] at hk
      cases hk
  | case3 word kind hk p rest ih =>
    have hw := (ofText?_eq_some_iff (hup word List.mem_cons_self)).mp hk
    have ih := @ih fun w hw => hup w (by simp [hw])
    rw [bind_eq_ok, cons_eq_orderItems]
    constructor
    · rintro ⟨more, hm, h⟩
      cases h
      exact ⟨⟨kind, p⟩, more, rfl, by rw [hw], by rw [ih.mp hm]⟩
    · rintro ⟨o, more, rfl, -, hr⟩
      cases hr
      exact ⟨more, ih.mpr rfl, rfl⟩
  | case4 word rest kind hk hne =>
    rw [cons_eq_orderItems]
    constructor
    · intro h; cases h
    · rintro ⟨o, more, -, -, hr⟩
      exact absurd hr (hne _ _)
  | case5 it rest hne =>
    rw [cons_eq_orderItems]
    constructor
    · intro h; cases h
    · rintro ⟨o, more, -, hw, -⟩
      exact absurd hw (hne _)

theorem orders_eq_ok_iff (hup : ∀ w, Item.word w ∈ its → upper w = w) {os : List HelperOrder} :
    orders verb its = .ok os ↔ os ≠ [] ∧ its = os.flatMap HelperOrder.items :=
  nonempty_eq_ok_iff (allOrders_eq_ok_iff hup) (by cases os <;> simp [HelperOrder.items])

theorem targetWithContent_eq_ok_iff {t : Target} {content : Option String} :
    targetWithContent verb its = .ok (t, content) ↔
      its = .target t :: (content.map (.keyed .content)).toList := by
  cases its with
  | nil => simp [targetWithContent]
  | cons first rest =>
    rw [targetWithContent, bind_eq_ok]
    constructor
    · rintro ⟨t', ht, h⟩
      obtain ⟨c, hc, h⟩ := bind_eq_ok.mp h
      cases h
      obtain rfl : first = .target t := by simpa using oneTarget_eq_ok_iff.mp ht
      rw [optionalKeyed_eq_ok_iff.mp hc]
    · intro h
      obtain ⟨rfl, hr⟩ : first = .target t ∧ rest = (content.map (.keyed .content)).toList := by
        simpa using h
      exact ⟨t, oneTarget_eq_ok_iff.mpr rfl,
        bind_eq_ok.mpr ⟨content, optionalKeyed_eq_ok_iff.mpr hr, rfl⟩⟩

end Shape

/-! ### Directives and their items -/

variable {d : Dialect}

/-- The items of the arguments of a directive. -/
def argumentItems : Directive d → List Item
  | .read targets => targets.map .target
  | .run command => [.keyed .command command]
  | .spawn orders => orders.flatMap HelperOrder.items
  | .wait => []
  | .finish report => if report.isEmpty then [] else [.keyed .prompt report]
  | .change content => [.keyed .content content]
  | .create target content => .target target :: (content.map (.keyed .content)).toList
  | .delete target => [.target target]
  | .assign assignments => assignments.flatMap assignmentItems
  | .updateReadme content => [.keyed .content content]
  | .delegate prompt => [.keyed .prompt prompt]
  | .updateDocumentation content => [.keyed .content content]
  | .message prompt => [.keyed .prompt prompt]

theorem flatMap_argumentItems (x : Directive d) :
    x.argumentItems.flatMap Item.tokens = x.argumentTokens.flatten := by
  cases x with
  | read ts => rw [argumentItems, argumentTokens, List.flatMap_map]; rfl
  | spawn os => rw [argumentItems, argumentTokens, List.flatMap_assoc]; rfl
  | assign as => rw [argumentItems, argumentTokens, List.flatMap_assoc]; rfl
  | finish report => rw [argumentItems, argumentTokens]; split <;> rfl
  | create t content => cases content <;> rfl
  | _ => rfl

/-- The only bare words among the arguments are those of helper kinds. -/
theorem kind_of_mem_argumentItems {x : Directive d} {w : String}
    (h : Item.word w ∈ x.argumentItems) : ∃ kind : HelperKind, w = kind.text := by
  cases x with
  | spawn os =>
    obtain ⟨o, -, ho⟩ := List.mem_flatMap.mp h
    exact ⟨o.kind, by simpa [HelperOrder.items] using ho⟩
  | assign as => simp [argumentItems, assignmentItems] at h
  | finish report => rw [argumentItems] at h; split at h <;> simp at h
  | create t content => cases content <;> simp [argumentItems] at h
  | _ => simp [argumentItems] at h

theorem isNoun_of_mem_argumentItems {x : Directive d} {w : String}
    (h : Item.word w ∈ x.argumentItems) : isNoun w = false := by
  obtain ⟨kind, rfl⟩ := kind_of_mem_argumentItems h
  cases kind
  rfl

theorem verb_of_ofItems {verb : Verb} {its : List Item} {x : Directive d}
    (h : ofItems d verb its = .ok x) : x.verb = verb := by
  unfold ofItems at h
  split at h
  all_goals first | cases h | (obtain ⟨_, _, rfl⟩ := map_eq_ok.mp h; rfl)

/-- A report that is left out counts as empty. -/
theorem exists_report_iff {its : List Item} {report : String} :
    (∃ o : Option String, its = (o.map (.keyed .prompt)).toList ∧ o.getD "" = report) ↔
      its = (if report.isEmpty then [] else [.keyed .prompt report]) ∨
        report = "" ∧ its = [.keyed .prompt ""] := by
  constructor
  · rintro ⟨_ | value, rfl, rfl⟩
    · exact Or.inl rfl
    · by_cases h : value = ""
      · exact Or.inr ⟨h, by rw [h]; rfl⟩
      · exact Or.inl (by simp [h])
  · rintro (rfl | ⟨rfl, rfl⟩)
    · by_cases h : report = ""
      · exact ⟨none, by simp [h], h.symm⟩
      · exact ⟨some report, by simp [h], rfl⟩
    · exact ⟨some "", rfl, rfl⟩

/-- **The directive of a verb and items** is the one that has this verb and these arguments. -/
theorem ofItems_verb_eq_ok_iff {its : List Item} {x : Directive d}
    (hup : ∀ w, Item.word w ∈ its → upper w = w) :
    ofItems d x.verb its = .ok x ↔
      x.Filled ∧ (its = x.argumentItems ∨ x = .finish "" ∧ its = [.keyed .prompt ""]) := by
  cases x with
  | read ts => simp [verb, ofItems, map_eq_ok, Shape.targets_eq_ok_iff, Filled, argumentItems]
  | run c => simp [verb, ofItems, map_eq_ok, Shape.keyed_eq_ok_iff, Filled, argumentItems]
  | spawn os => simp [verb, ofItems, map_eq_ok, Shape.orders_eq_ok_iff hup, Filled, argumentItems]
  | wait => simp [verb, ofItems, map_eq_ok, Shape.nothing_eq_ok_iff, Filled, argumentItems]
  | finish report =>
    simp only [verb, ofItems, map_eq_ok, Shape.optionalKeyed_eq_ok_iff, finish.injEq,
      exists_report_iff, Filled, argumentItems, true_and]
  | change c => simp [verb, ofItems, map_eq_ok, Shape.keyed_eq_ok_iff, Filled, argumentItems]
  | create t content =>
    simp [verb, ofItems, map_eq_ok, Shape.targetWithContent_eq_ok_iff, Filled, argumentItems]
  | delete t => simp [verb, ofItems, map_eq_ok, Shape.oneTarget_eq_ok_iff, Filled, argumentItems]
  | assign as =>
    simp [verb, ofItems, map_eq_ok, Shape.assignments_eq_ok_iff, Filled, argumentItems]
  | updateReadme c => simp [verb, ofItems, map_eq_ok, Shape.keyed_eq_ok_iff, Filled, argumentItems]
  | delegate p => simp [verb, ofItems, map_eq_ok, Shape.keyed_eq_ok_iff, Filled, argumentItems]
  | updateDocumentation c =>
    simp [verb, ofItems, map_eq_ok, Shape.keyed_eq_ok_iff, Filled, argumentItems]
  | message p => simp [verb, ofItems, map_eq_ok, Shape.keyed_eq_ok_iff, Filled, argumentItems]

/-! ### Directives and their tokens -/

theorem verb?_verb (x : Directive d) : d.verb? x.verb.text = some x.verb := by
  cases d <;> cases x <;> rfl

theorem text_of_verb? {word : String} {v : Verb} (h : d.verb? word = some v) : v.text = word := by
  simpa using List.find?_some h

theorem split_eq_ok_iff {ts : List Token} {word : String} {its : List Item} :
    split ts = .ok (word, its) ↔ ∃ rest, ts = .word word :: rest ∧ items rest = .ok its := by
  constructor
  · intro h
    unfold split at h
    split at h
    · cases h
    · obtain ⟨its', hi, h⟩ := bind_eq_ok.mp h
      cases h
      exact ⟨_, rfl, hi⟩
    · cases h
  · rintro ⟨rest, rfl, hi⟩
    rw [split, hi]
    rfl

/-- Words of items are words of their tokens. -/
theorem upper_of_items {ts : List Token} {its : List Item} (hi : items ts = .ok its)
    (hup : ∀ w, Token.word w ∈ ts → upper w = w) (w : String) (hw : Item.word w ∈ its) :
    upper w = w := by
  refine hup w ?_
  rw [tokens_of_items hi]
  exact List.mem_flatMap.mpr ⟨_, hw, by simp [Item.tokens]⟩

/-- The tokens behind the verb, in the canonical or in the longer form, have the items that the
directive has. -/
theorem items_eq_ok_iff_writes {rest : List Token} {x : Directive d} :
    (items rest = .ok x.argumentItems ∨ x = .finish "" ∧ items rest = .ok [.keyed .prompt ""]) ↔
      Token.word x.verb.text :: rest = x.tokens ∨
        x = .finish "" ∧ Token.word x.verb.text :: rest = emptyReportTokens := by
  rw [items_eq_ok_iff fun w => isNoun_of_mem_argumentItems, flatMap_argumentItems, tokens,
    List.cons.injEq, items_eq_ok_iff (by simp)]
  refine or_congr (by simp) (and_congr_right ?_)
  rintro rfl
  simp [emptyReportTokens, verb, Item.tokens]

/-- **The directive of tokens** is the one that they write. -/
theorem ofTokens_eq_ok_iff {ts : List Token} (hup : ∀ w, Token.word w ∈ ts → upper w = w)
    {x : Directive d} : ofTokens d ts = .ok x ↔ Writes ts x := by
  unfold ofTokens Writes
  rw [bind_eq_ok]
  constructor
  · rintro ⟨⟨word, its⟩, hs, h⟩
    obtain ⟨rest, rfl, hi⟩ := split_eq_ok_iff.mp hs
    simp only at h
    split at h
    · next v hv =>
      obtain rfl := verb_of_ofItems h
      obtain rfl := text_of_verb? hv
      have hw := upper_of_items hi fun w hw => hup w (List.mem_cons_of_mem _ hw)
      obtain ⟨hf, h⟩ := (ofItems_verb_eq_ok_iff hw).mp h
      refine ⟨hf, items_eq_ok_iff_writes.mp ?_⟩
      rcases h with rfl | ⟨hx, rfl⟩
      · exact Or.inl hi
      · exact Or.inr ⟨hx, hi⟩
    · cases h
  · rintro ⟨hf, h⟩
    obtain ⟨rest, rfl⟩ : ∃ rest, ts = .word x.verb.text :: rest := by
      rcases h with rfl | ⟨rfl, rfl⟩
      · exact ⟨_, rfl⟩
      · exact ⟨_, rfl⟩
    have hit : ∃ its, items rest = .ok its ∧
        (its = x.argumentItems ∨ x = .finish "" ∧ its = [.keyed .prompt ""]) := by
      rcases items_eq_ok_iff_writes.mpr h with hi | ⟨hx, hi⟩
      · exact ⟨_, hi, Or.inl rfl⟩
      · exact ⟨_, hi, Or.inr ⟨hx, rfl⟩⟩
    obtain ⟨its, hi, hits⟩ := hit
    refine ⟨(x.verb.text, its), split_eq_ok_iff.mpr ⟨rest, rfl, hi⟩, ?_⟩
    simp only [verb?_verb]
    have hw := upper_of_items hi fun w hw => hup w (List.mem_cons_of_mem _ hw)
    exact (ofItems_verb_eq_ok_iff hw).mpr ⟨hf, hits⟩

/-- **A text is read as a directive** exactly if the tokens of its body write that directive. -/
theorem parse_eq_ok_iff_writes {text : String} {x : Directive d} :
    parse d text = .ok x ↔ ∃ ts, tokenize (body d text.toList) = .ok ts ∧ Writes ts x := by
  unfold parse
  split
  · next e he =>
    constructor
    · intro h; cases h
    · rintro ⟨ts, hts, -⟩; rw [he] at hts; cases hts
  · next ts hts =>
    rw [ofTokens_eq_ok_iff fun w hw => upper_of_scan hts hw]
    constructor
    · intro h; exact ⟨ts, hts, h⟩
    · rintro ⟨ts', h, hw⟩; rw [hts] at h; cases h; exact hw

end Arbor.Directive
