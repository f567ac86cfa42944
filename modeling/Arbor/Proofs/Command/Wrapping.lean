import Arbor.Command.Screen
import Arbor.Proofs.Blank
import Mathlib

/-! # Commands behind wrappers

A wrapper runs the rest of a command, so a command is judged by what stands behind all wrappers. They
are taken off one after the other, the first one that stands there each time; as none of them starts
another one, there is only one way to do it. The blanks around them, and those at the end of the text,
do not matter.

* `Layer`, `wrap`: wrappers in front of a command, with blanks between them.
* `bareCommand_layers`: wrappers are taken off, whatever comes behind them.
* `exists_layers`: nothing else is taken off.
* `iterate_unwrap?`: taking off wrappers comes to an end.
* `screen_wrap`: a command is judged behind wrappers as it is judged alone.
* `screen_eq_error_iff`: what is refused is a refused command behind wrappers.
* `screen_wrapped`: all of it. -/

namespace Arbor.Command

open Arbor.Text

variable {s w : String} {h : Hazard} {cs before after rest : List Char}

/-! ### Wrappers and hazards -/

/-- No wrapper stands in front. -/
def Bare (cs : List Char) : Prop := ∀ w ∈ wrappers, ¬ w.toList <+: cs

/-- No refused command stands in front. -/
def Harmless (cs : List Char) : Prop := ∀ h ∈ hazards, ¬ h.start.toList <+: cs

instance : DecidablePred Bare := fun _ => inferInstanceAs (Decidable (∀ w ∈ wrappers, _))

instance : DecidablePred Harmless := fun _ => inferInstanceAs (Decidable (∀ h ∈ hazards, _))

/-- No wrapper starts another one. -/
theorem wrapper_unique : ∀ w ∈ wrappers, ∀ v ∈ wrappers, v.toList <+: w.toList → v = w := by decide

/-- No refused command starts another one. -/
theorem hazard_unique : ∀ h ∈ hazards, ∀ g ∈ hazards, g.start.toList <+: h.start.toList → g = h := by
  decide

/-- A wrapper does not start a refused command. -/
theorem wrapper_harmless : ∀ h ∈ hazards, ∀ w ∈ wrappers,
    ¬ w.toList <+: h.start.toList ∧ ¬ h.start.toList <+: w.toList := by decide

/-- A wrapper is a word with a blank behind it, and the word alone is neither a wrapper nor refused. -/
theorem wrapper_word (known : w ∈ wrappers) :
    ∃ word, w.toList = word ++ [' '] ∧ Solid word ∧ Bare word ∧ Harmless word := by
  have htable : ∀ w ∈ wrappers, w.toList = w.toList.dropLast ++ [' '] ∧ Solid w.toList.dropLast ∧
      Bare w.toList.dropLast ∧ Harmless w.toList.dropLast := by decide
  exact ⟨_, htable w known⟩

theorem solid_start : ∀ h ∈ hazards, Solid h.start.toList := by decide

/-- Behind the start of a refused command no wrapper is looked for. -/
theorem bare_of_start (dangerous : h ∈ hazards) (start : h.start.toList <+: cs) : Bare cs := by
  intro w known hw
  obtain ⟨hwh, hhw⟩ := wrapper_harmless h dangerous w known
  exact (List.prefix_or_prefix_of_prefix hw start).elim hwh hhw

/-- Among texts of which none starts another one, the one that stands in front is found. -/
theorem find?_of_start {α : Type} {xs : List α} {text : α → List Char} {x : α}
    (unique : ∀ x ∈ xs, ∀ y ∈ xs, text y <+: text x → y = x) (hx : x ∈ xs) (start : text x <+: cs) :
    xs.find? (fun y => (text y).isPrefixOf cs) = some x := by
  have hfound : (xs.find? fun y => (text y).isPrefixOf cs).isSome :=
    List.find?_isSome.mpr ⟨x, hx, List.isPrefixOf_iff_prefix.mpr start⟩
  obtain ⟨y, hfind⟩ := Option.isSome_iff_exists.mp hfound
  have hy := List.mem_of_find?_eq_some hfind
  have hstart := List.find?_some hfind
  rcases List.prefix_or_prefix_of_prefix (List.isPrefixOf_iff_prefix.mp hstart) start with hyx | hxy
  · rw [hfind, unique x hx y hy hyx]
  · rw [hfind, unique y hy x hx hxy]

/-! ### Taking off one wrapper -/

theorem unwrap?_eq_none : unwrap? cs = none ↔ Bare cs := by
  simp only [unwrap?, Option.map_eq_none_iff, List.find?_eq_none, List.isPrefixOf_iff_prefix, Bare]

/-- **A wrapper is taken off** with the blanks behind it. -/
theorem unwrap?_wrapper (known : w ∈ wrappers) (rest : List Char) :
    unwrap? (w.toList ++ rest) = some (trimStartChars rest) := by
  have hfind : wrappers.find? (fun v => v.toList.isPrefixOf (w.toList ++ rest)) = some w :=
    find?_of_start wrapper_unique known (List.prefix_append _ _)
  rw [unwrap?, hfind, Option.map_some, ← String.length_toList, List.drop_left]

/-- Only a wrapper is taken off. -/
theorem eq_append_of_unwrap? (found : unwrap? cs = some rest) :
    ∃ w ∈ wrappers, ∃ more, cs = w.toList ++ more ∧ rest = trimStartChars more := by
  obtain ⟨w, hw, rfl⟩ := Option.map_eq_some_iff.mp found
  have hstart := List.find?_some hw
  obtain ⟨more, rfl⟩ := List.isPrefixOf_iff_prefix.mp hstart
  refine ⟨w, List.mem_of_find?_eq_some hw, more, rfl, ?_⟩
  rw [← String.length_toList, List.drop_left]

theorem bareCommand_of_bare (bare : Bare cs) : bareCommand cs = cs := by
  rw [bareCommand]
  split
  · rfl
  · next hsome => cases (unwrap?_eq_none.mpr bare).symm.trans hsome

theorem bareCommand_of_some (found : unwrap? cs = some rest) : bareCommand cs = bareCommand rest := by
  rw [bareCommand]
  split
  · next hnone => cases found.symm.trans hnone
  · next hsome => rw [Option.some.inj (found.symm.trans hsome)]

/-- **Taking off wrappers comes to an end:** after a number of steps none is left. -/
theorem iterate_unwrap? (cs : List Char) : ∃ n ≤ cs.length,
    (Option.bind · unwrap?)^[n] (some cs) = some (bareCommand cs) ∧ Bare (bareCommand cs) := by
  fun_induction bareCommand cs with
  | case1 cs hnone => exact ⟨0, Nat.zero_le _, rfl, unwrap?_eq_none.mp hnone⟩
  | case2 cs rest hsome hshort ih =>
    obtain ⟨n, hn, hrun, bare⟩ := ih
    refine ⟨n + 1, Nat.lt_of_le_of_lt hn hshort, ?_, bare⟩
    rw [Function.iterate_succ_apply, Option.bind_some, hsome, hrun]

/-! ### Layers -/

/-- One wrapper with the blanks before it. -/
structure Layer where
  gap : List Char
  wrapper : String
  blank : Blank gap
  known : wrapper ∈ wrappers

/-- What a layer is written as. -/
def Layer.chars (l : Layer) : List Char := l.gap ++ l.wrapper.toList

/-- **A command behind wrappers,** with blanks before it and behind it. -/
def wrap (layers : List Layer) (before : List Char) (command : String) (after : List Char) : String :=
  String.ofList (layers.flatMap Layer.chars ++ before ++ command.toList ++ after)

theorem bareCommand_layer (l : Layer) (rest : List Char) :
    bareCommand (trimStartChars (l.chars ++ rest)) = bareCommand (trimStartChars rest) := by
  have htrim : trimStartChars (l.chars ++ rest) = l.wrapper.toList ++ rest := by
    obtain ⟨word, hword, solid, -⟩ := wrapper_word l.known
    rw [Layer.chars, List.append_assoc, trimStartChars_append l.blank, hword, List.append_assoc,
      solid.trimStartChars]
  rw [htrim, bareCommand_of_some (unwrap?_wrapper l.known rest)]

/-- **Wrappers are taken off,** whatever comes behind them. -/
theorem bareCommand_layers (layers : List Layer) (rest : List Char) :
    bareCommand (trimStartChars (layers.flatMap Layer.chars ++ rest)) =
      bareCommand (trimStartChars rest) := by
  induction layers with
  | nil => rfl
  | cons l layers ih => rw [List.flatMap_cons, List.append_assoc, bareCommand_layer, ih]

/-- **Nothing but wrappers is taken off,** and the blanks between them. -/
theorem exists_layers {gap : List Char} (blank : Blank gap) (cs : List Char) :
    ∃ (layers : List Layer) (before : List Char), Blank before ∧
      gap ++ cs = layers.flatMap Layer.chars ++ before ++ bareCommand cs := by
  fun_induction bareCommand cs generalizing gap with
  | case1 cs hnone => exact ⟨[], gap, blank, rfl⟩
  | case2 cs rest hsome hshort ih =>
    obtain ⟨w, known, more, rfl, rfl⟩ := eq_append_of_unwrap? hsome
    have hgap : Blank (more.takeWhile isBlank) := fun c hc => List.mem_takeWhile_imp hc
    obtain ⟨layers, before, hbefore, hmore⟩ := ih hgap
    refine ⟨⟨gap, w, blank, known⟩ :: layers, before, hbefore, ?_⟩
    have hsplit : more.takeWhile isBlank ++ trimStartChars more = more :=
      List.takeWhile_append_dropWhile
    rw [List.flatMap_cons, Layer.chars, List.append_assoc, List.append_assoc, ← List.append_assoc _ before,
      ← hmore, hsplit, List.append_assoc]

/-- What is left of a text behind layers, if a solid part ends it. -/
theorem bareCommand_trimChars {front body : List Char} (layers : List Layer) (blankFront : Blank front)
    (solid : Solid body) (blankAfter : Blank after) :
    bareCommand (trimChars (layers.flatMap Layer.chars ++ front ++ body ++ after)) =
      bareCommand body := by
  have hsolid := solid.trimStartChars []
  rw [List.append_nil] at hsolid
  rw [trimChars_append_solid _ solid blankAfter, List.append_assoc, bareCommand_layers,
    trimStartChars_append blankFront, hsolid]

/-! ### Verdicts -/

/-- What is refused stands in front of the command behind all wrappers. -/
theorem screen_eq_error : screen s = .error h ↔
    h ∈ hazards ∧ h.start.toList <+: bareCommand (trimChars s.toList) := by
  simp only [screen]
  constructor
  · intro hscreen
    split at hscreen
    · next g hfind =>
      obtain rfl := Except.error.inj hscreen
      have hstart := List.find?_some hfind
      exact ⟨List.mem_of_find?_eq_some hfind, List.isPrefixOf_iff_prefix.mp hstart⟩
    · cases hscreen
  · rintro ⟨dangerous, hstart⟩
    rw [find?_of_start hazard_unique dangerous hstart]

theorem screen_ok (harmless : Harmless (bareCommand (trimChars s.toList))) : screen s = .ok () := by
  cases hscreen : screen s with
  | error h => exact absurd (screen_eq_error.mp hscreen).2 (harmless h (screen_eq_error.mp hscreen).1)
  | ok => rfl

theorem screen_blank (blank : Blank s.toList) : screen s = .ok () := by
  refine screen_ok ?_
  rw [trimChars_blank blank, bareCommand_of_bare (by decide)]
  decide

theorem toList_wrap (layers : List Layer) (before : List Char) (command : String) (after : List Char) :
    (wrap layers before command after).toList =
      layers.flatMap Layer.chars ++ before ++ command.toList ++ after :=
  String.toList_ofList

/-- Behind wrappers nothing is refused if no command follows. -/
theorem screen_wrap_blank {command : String} (layers : List Layer) (blankBefore : Blank before)
    (blank : Blank command.toList) (blankAfter : Blank after) :
    screen (wrap layers before command after) = .ok () := by
  have hblank : Blank (before ++ command.toList ++ after) :=
    (blankBefore.append blank).append blankAfter
  rcases List.eq_nil_or_concat layers with rfl | ⟨init, l, rfl⟩
  · refine screen_blank ?_
    rwa [toList_wrap, List.flatMap_nil, List.nil_append]
  · -- the last wrapper loses its own blank and is left as a word
    obtain ⟨word, hword, solid, bare, harmless⟩ := wrapper_word l.known
    have htext : (wrap (init.concat l) before command after).toList =
        init.flatMap Layer.chars ++ l.gap ++ word ++ ([' '] ++ (before ++ command.toList ++ after)) := by
      simp [toList_wrap, Layer.chars, hword]
    refine screen_ok ?_
    rw [htext, bareCommand_trimChars init l.blank solid ((blank_singleton rfl).append hblank),
      bareCommand_of_bare bare]
    exact harmless

/-- **A command is judged behind wrappers as it is judged alone.** -/
theorem screen_wrap (layers : List Layer) (command : String) (blankBefore : Blank before)
    (blankAfter : Blank after) : screen (wrap layers before command after) = screen command := by
  rcases solid_cases command.toList with blank | ⟨gap, body, gap', hbody, blank, solid, blank'⟩
  · rw [screen_blank blank, screen_wrap_blank layers blankBefore blank blankAfter]
  · have htext : (wrap layers before command after).toList =
        layers.flatMap Layer.chars ++ (before ++ gap) ++ body ++ (gap' ++ after) := by
      simp [toList_wrap, hbody]
    have hleft : bareCommand (trimChars (wrap layers before command after).toList) =
        bareCommand (trimChars command.toList) := by
      rw [htext, bareCommand_trimChars layers (blankBefore.append blank) solid (blank'.append blankAfter),
        hbody, trimChars_solid solid blank blank']
    simp only [screen, hleft]

/-- The start of a refused command is left when the ends are trimmed. -/
theorem start_trimChars (dangerous : h ∈ hazards) (rest : List Char) :
    h.start.toList <+: trimChars (h.start.toList ++ rest) := by
  have solid := solid_start h dangerous
  rcases solid_cases rest with blank | ⟨gap, body, gap', rfl, -, solid', blank'⟩
  · have htrim := trimChars_solid solid blank_nil blank
    rw [List.nil_append] at htrim
    rw [htrim]
  · have htext : h.start.toList ++ (gap ++ body ++ gap') = h.start.toList ++ gap ++ body ++ gap' := by
      simp only [List.append_assoc]
    rw [htext, trimChars_append_solid _ solid' blank', List.append_assoc, solid.trimStartChars]
    exact List.prefix_append _ _

/-- **What is refused is a refused command behind wrappers,** whatever it goes on with. -/
theorem screen_eq_error_iff {command : String} : screen command = .error h ↔
    h ∈ hazards ∧ ∃ layers before rest, Blank before ∧
      command = wrap layers before (h.start ++ rest) [] := by
  constructor
  · intro hscreen
    obtain ⟨dangerous, start, hstart⟩ := screen_eq_error.mp hscreen
    refine ⟨dangerous, ?_⟩
    rcases solid_cases command.toList with blank | ⟨gap, body, gap', hbody, blank, solid, blank'⟩
    · cases (screen_blank blank).symm.trans hscreen
    · obtain ⟨layers, before, hbefore, hlayers⟩ := exists_layers blank body
      rw [hbody, trimChars_solid solid blank blank'] at hstart
      refine ⟨layers, before, String.ofList (start ++ gap'), hbefore, String.toList_injective ?_⟩
      rw [hbody, hlayers, ← hstart, toList_wrap, String.toList_append, String.toList_ofList]
      simp only [List.append_assoc, List.append_nil]
  · rintro ⟨dangerous, layers, before, rest, blank, rfl⟩
    have hstart := start_trimChars dangerous rest.toList
    rw [screen_wrap layers _ blank blank_nil, screen_eq_error, String.toList_append,
      bareCommand_of_bare (bare_of_start dangerous hstart)]
    exact ⟨dangerous, hstart⟩

/-- **Wrappers never hide a command.** With any wrappers in front, and any blanks before, between and
behind them, a command is judged as it is alone. It is refused exactly if it is a refused command
behind wrappers. Taking them off comes to an end, after no more steps than there are characters. -/
theorem screen_wrapped :
    (∀ (layers : List Layer) (before after : List Char) (command : String), Blank before →
      Blank after → screen (wrap layers before command after) = screen command) ∧
    (∀ (command : String) (h : Hazard), screen command = .error h ↔
      h ∈ hazards ∧ ∃ layers before rest, Blank before ∧
        command = wrap layers before (h.start ++ rest) []) ∧
    ∀ cs, ∃ n ≤ cs.length, (Option.bind · unwrap?)^[n] (some cs) = some (bareCommand cs) ∧
      Bare (bareCommand cs) :=
  ⟨fun layers _ _ command blankBefore blankAfter => screen_wrap layers command blankBefore blankAfter,
    fun _ _ => screen_eq_error_iff, iterate_unwrap?⟩

/-- A tab stands before `sudo`, and two blanks stand behind it and behind `nice`. -/
theorem screen_wrapped_find :
    Blank [' '] ∧ screen (wrap [⟨['\t'], "sudo ", blank_singleton rfl, by decide⟩,
        ⟨[' '], "nice ", blank_singleton rfl, by decide⟩] [' '] "find / -name x" [' ']) =
      .error ⟨"find /", "search inside the project instead"⟩ := by
  obtain ⟨judged, refused, -⟩ := screen_wrapped
  have hblank : Blank [' '] := blank_singleton rfl
  have hfind : screen "find / -name x" = .error ⟨"find /", "search inside the project instead"⟩ :=
    (refused _ _).mpr ⟨by decide, [], [], " -name x", blank_nil, by decide⟩
  exact ⟨hblank, (judged _ [' '] [' '] "find / -name x" hblank hblank).trans hfind⟩

end Arbor.Command
