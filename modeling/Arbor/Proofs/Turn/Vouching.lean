import Arbor.Proofs.Blank
import Arbor.Proofs.Roster
import Arbor.Proofs.Turn.Verbs

/-! # What the allow-list vouches for

The allow-list looks at a command without the blanks at its ends and takes any blank for the end of
a word, but the shell is handed the command as it is and separates words at spaces, tabs and line
ends only. A program on the list is the one that the shell starts exactly if both readings agree on
where it starts and where it ends.

* `shellWords`: the words that the shell sees.
* `check_eq_ok_iff`: which commands are allowed.
* `leads_iff`: when the words of an allowed program are the first words of the command.
* `run_vouched`: what is so of every command that the executor is called with. -/

namespace Arbor

namespace Command

open Text

/-! ### Words of the shell -/

/-- What separates the words of a command for the shell. -/
def isSeparator (c : Char) : Bool := c == ' ' || c == '\t' || c == '\n'

/-- The words of a command for the shell, if it holds no syntax that ends a command. -/
def shellWords (cs : List Char) : List (List Char) :=
  (cs.splitOnP isSeparator).filter fun w => !w.isEmpty

/-- A word of the shell ends before this rest. -/
def endsShellWord : List Char → Bool
  | [] => true
  | c :: _ => isSeparator c

theorem isBlank_of_isSeparator {c : Char} (h : isSeparator c = true) : isBlank c = true := by
  simp only [isSeparator, Bool.or_eq_true, beq_iff_eq] at h
  rcases h with (rfl | rfl) | rfl <;> decide

theorem isSeparator_of_dark {c : Char} (dark : isBlank c = false) : isSeparator c = false := by
  by_contra h
  rw [Bool.not_eq_false] at h
  cases dark.symm.trans (isBlank_of_isSeparator h)

theorem shellWords_append_cons {s : Char} (hs : isSeparator s = true) (a b : List Char) :
    shellWords (a ++ s :: b) = shellWords a ++ shellWords b := by
  rw [shellWords, List.splitOnP_append_cons a b hs, List.filter_append]
  rfl

theorem shellWords_separator {s : Char} (hs : isSeparator s = true) (b : List Char) :
    shellWords (s :: b) = shellWords b := shellWords_append_cons hs [] b

theorem shellWords_separators {gap : List Char} (hgap : ∀ c ∈ gap, isSeparator c = true)
    (cs : List Char) : shellWords (gap ++ cs) = shellWords cs := by
  induction gap with
  | nil => rfl
  | cons s gap ih =>
    rw [List.cons_append, shellWords_separator (hgap s List.mem_cons_self)]
    exact ih fun c hc => hgap c (List.mem_cons_of_mem _ hc)

/-- Words that do not run together are the words of the parts. -/
theorem shellWords_append {b : List Char} (ends : endsShellWord b = true) (a : List Char) :
    shellWords (a ++ b) = shellWords a ++ shellWords b := by
  cases b with
  | nil => rw [List.append_nil]; exact (List.append_nil _).symm
  | cons s b => rw [shellWords_append_cons ends, shellWords_separator ends]

theorem shellWords_word {w : List Char} (filled : w ≠ [])
    (hw : ∀ c ∈ w, isSeparator c = false) : shellWords w = [w] := by
  rw [shellWords, List.splitOnP_eq_singleton hw]
  simp [filled]

/-- A text starts with what is left of a word. -/
theorem exists_word (cs : List Char) : ∃ w rest, cs = w ++ rest ∧
    (∀ c ∈ w, isSeparator c = false) ∧ endsShellWord rest = true := by
  induction cs with
  | nil => exact ⟨[], [], rfl, nofun, rfl⟩
  | cons b cs ih =>
    by_cases hb : isSeparator b = true
    · exact ⟨[], b :: cs, rfl, nofun, hb⟩
    · obtain ⟨w, rest, rfl, hw, ends⟩ := ih
      exact ⟨b :: w, rest, rfl, List.forall_mem_cons.mpr ⟨by simpa using hb, hw⟩, ends⟩

/-- A text that starts with no separator has a first word, which starts there. -/
theorem shellWords_append_word {w : List Char} (filled : w ≠ [])
    (hw : ∀ c ∈ w, isSeparator c = false) (cs : List Char) :
    ∃ more rest, shellWords (w ++ cs) = (w ++ more) :: rest ∧
      (endsShellWord cs = false → more ≠ []) := by
  obtain ⟨more, rest, rfl, hmore, ends⟩ := exists_word cs
  refine ⟨more, shellWords rest, ?_, ?_⟩
  · rw [← List.append_assoc, shellWords_append ends, shellWords_word (by simp [filled])]
    · rfl
    · exact List.forall_mem_append.mpr ⟨hw, hmore⟩
  · rintro goesOn rfl
    rw [List.nil_append, ends] at goesOn
    cases goesOn

theorem shellWords_cons {c : Char} (hc : isSeparator c = false) (cs : List Char) :
    ∃ more rest, shellWords (c :: cs) = (c :: more) :: rest := by
  obtain ⟨more, rest, h, -⟩ :=
    shellWords_append_word (List.cons_ne_nil c []) (List.forall_mem_singleton.mpr hc) cs
  exact ⟨more, rest, h⟩

/-- A text that ends with no separator has a last word, before which the words are apart. -/
theorem exists_last_word {init : List Char} {c : Char} (hc : isSeparator c = false) :
    ∃ front w, init ++ [c] = front ++ w ∧ w ≠ [] ∧ (∀ x ∈ w, isSeparator x = false) ∧
      (front = [] ∨ ∃ f s, front = f ++ [s] ∧ isSeparator s = true) := by
  induction init with
  | nil => exact ⟨[], [c], rfl, by simp, by simpa using hc, Or.inl rfl⟩
  | cons b init ih =>
    obtain ⟨front, w, h, filled, hw, apart⟩ := ih
    rw [List.cons_append, h]
    rcases apart with rfl | ⟨f, s, rfl, hs⟩
    · by_cases hb : isSeparator b = true
      · exact ⟨[b], w, rfl, filled, hw, Or.inr ⟨[], b, rfl, hb⟩⟩
      · exact ⟨[], b :: w, rfl, by simp, List.forall_mem_cons.mpr ⟨by simpa using hb, hw⟩,
          Or.inl rfl⟩
    · exact ⟨b :: (f ++ [s]), w, rfl, filled, hw, Or.inr ⟨b :: f, s, rfl, hs⟩⟩

theorem shellWords_front {front : List Char}
    (apart : front = [] ∨ ∃ f s, front = f ++ [s] ∧ isSeparator s = true) (rest : List Char) :
    shellWords (front ++ rest) = shellWords front ++ shellWords rest := by
  rcases apart with rfl | ⟨f, s, rfl, hs⟩
  · rfl
  · have hfront : shellWords (f ++ [s]) = shellWords f := by
      rw [shellWords_append_cons hs]
      exact List.append_nil _
    rw [hfront, List.append_assoc, List.singleton_append, shellWords_append_cons hs]

/-- **The words of a part are the first words of the whole** exactly if its last word ends with
it. -/
theorem shellWords_prefix_iff {p : List Char} (solid : Solid p) (rest : List Char) :
    shellWords p <+: shellWords (p ++ rest) ↔ endsShellWord rest = true := by
  constructor
  · intro h
    by_contra goesOn
    rw [Bool.not_eq_true] at goesOn
    obtain ⟨init, c, rfl, dark⟩ := solid.last
    obtain ⟨front, w, hp, filled, hw, apart⟩ := exists_last_word (isSeparator_of_dark dark)
    obtain ⟨more, others, hwhole, hmore⟩ := shellWords_append_word filled hw rest
    rw [hp, List.append_assoc, shellWords_front apart, shellWords_front apart,
      shellWords_word filled hw, hwhole, List.prefix_append_right_inj] at h
    obtain ⟨hword, -⟩ := List.cons_prefix_cons.mp h
    exact hmore goesOn (List.self_eq_append_right.mp hword)
  · intro ends
    rw [shellWords_append ends]
    exact List.prefix_append _ _

/-- A part that starts behind a character of a word does not lead. -/
theorem isSeparator_of_prefix {p gap rest : List Char} (solid : Solid p) (blank : Blank gap)
    (h : shellWords p <+: shellWords (gap ++ rest)) : ∀ x ∈ gap, isSeparator x = true := by
  induction gap with
  | nil => nofun
  | cons b gap ih =>
    have hb : isSeparator b = true := by
      by_contra hb
      obtain ⟨c, q, rfl, dark⟩ := solid.first
      obtain ⟨more, others, hp⟩ := shellWords_cons (isSeparator_of_dark dark) q
      obtain ⟨more', others', hwhole⟩ :=
        shellWords_cons (show isSeparator b = false by simpa using hb) (gap ++ rest)
      rw [hp, List.cons_append, hwhole] at h
      obtain ⟨hword, -⟩ := List.cons_prefix_cons.mp h
      obtain ⟨rfl, -⟩ := List.cons.inj hword
      cases dark.symm.trans (blank c List.mem_cons_self)
    rw [List.cons_append, shellWords_separator hb] at h
    exact List.forall_mem_cons.mpr
      ⟨hb, ih (fun x hx => blank x (List.mem_cons_of_mem _ hx)) h⟩

/-! ### Allowed commands -/

/-- The command holds no syntax that chains, substitutes or redirects. -/
def Plain (cs : List Char) : Prop := ∀ text ∈ forbiddenSyntax, occursIn text.toList cs = false

/-- A command without the separators at its ends. -/
def stripped (cs : List Char) : List Char :=
  ((cs.dropWhile isSeparator).reverse.dropWhile isSeparator).reverse

/-- The allow-list lets the command pass for the sake of this program. -/
def Admits (program command : String) : Prop :=
  startsWithProgram (trimChars program.toList) (trimChars command.toList) = true

/-- The shell starts the program, with the arguments that are listed with it. -/
def Leads (program command : String) : Prop :=
  shellWords (trimChars program.toList) <+: shellWords command.toList

/-- **What the allow-list promises:** the shell reads the command as a single one, and the program
that it starts is listed. -/
structure Vouched (policy : Policy) (command : String) : Prop where
  single : Plain (stripped command.toList)
  listed : ∃ p ∈ policy.programs, trimChars p.toList ≠ [] ∧ Leads p command

/-- What stands before the program and right behind it are separators. -/
def SetApart (program command : String) : Prop :=
  (∀ x ∈ command.toList.takeWhile isBlank, isSeparator x = true) ∧
    endsShellWord ((trimStartChars command.toList).drop (trimChars program.toList).length) = true

/-- What stands behind the command are separators. -/
def WellEnded (command : String) : Prop :=
  ∀ x ∈ command.toList.reverse.takeWhile isBlank, isSeparator x = true

/-- **Which commands are allowed.** -/
theorem check_eq_ok_iff {policy : Policy} {command : String} :
    policy.check command = .ok () ↔ trimChars command.toList ≠ [] ∧
      Plain (trimChars command.toList) ∧ ∃ p ∈ policy.programs, Admits p command := by
  unfold Policy.check
  simp only
  by_cases hempty : (trimChars command.toList).isEmpty = true
  · rw [if_pos hempty]
    simp [List.isEmpty_iff.mp hempty]
  rw [if_neg hempty]
  have filled : trimChars command.toList ≠ [] := fun h => hempty (List.isEmpty_iff.mpr h)
  cases hfind : forbiddenSyntax.find? fun text => occursIn text.toList (trimChars command.toList) with
  | some text =>
    have hmem := List.mem_of_find?_eq_some hfind
    have hoccurs := List.find?_some hfind
    constructor
    · intro h
      cases h
    · rintro ⟨-, plain, -⟩
      cases (plain text hmem).symm.trans hoccurs
  | none =>
    have plain : Plain (trimChars command.toList) := fun text hmem => by
      simpa using List.find?_eq_none.mp hfind text hmem
    by_cases hlisted : (policy.programs.any fun p =>
        startsWithProgram (trimChars p.toList) (trimChars command.toList)) = true
    · rw [if_pos hlisted]
      exact iff_of_true rfl ⟨filled, plain, List.any_eq_true.mp hlisted⟩
    · rw [if_neg hlisted]
      constructor
      · intro h
        cases h
      · rintro ⟨-, -, admitted⟩
        exact absurd (List.any_eq_true.mpr admitted) hlisted

/-- A command that is let pass for a program is that program between blanks and a rest. -/
theorem Admits.parts {program command : String} (h : Admits program command) :
    Solid (trimChars program.toList) ∧ ∃ gap rest,
      command.toList = gap ++ (trimChars program.toList ++ rest) ∧ Blank gap := by
  unfold Admits startsWithProgram at h
  simp only [Bool.and_eq_true, Bool.not_eq_true', List.isEmpty_eq_false_iff] at h
  obtain ⟨⟨filled, hprefix⟩, -⟩ := h
  obtain ⟨rest, hrest⟩ := List.isPrefixOf_iff_prefix.mp hprefix
  refine ⟨solid_trimChars filled, ?_⟩
  rcases solid_cases command.toList with blank | ⟨gap, body, after, hparts, blank, solid, blank'⟩
  · rw [trimChars_blank blank] at hrest
    exact absurd (List.append_eq_nil_iff.mp hrest).1 filled
  · rw [hparts, trimChars_solid solid blank blank'] at hrest
    exact ⟨gap, rest ++ after, by rw [hparts, ← hrest]; simp, blank⟩

/-- **An allowed program leads** exactly if it is set apart for the shell. -/
theorem leads_iff {program command : String} (h : Admits program command) :
    Leads program command ↔ SetApart program command := by
  obtain ⟨solid, gap, rest, hparts, blank⟩ := h.parts
  obtain ⟨c, q, hfirst, dark⟩ := solid.first
  have hgap : command.toList.takeWhile isBlank = gap := by
    rw [hparts, List.takeWhile_append_of_pos blank, hfirst, List.cons_append,
      List.takeWhile_cons_of_neg (by simp [dark]), List.append_nil]
  have hrest : (trimStartChars command.toList).drop (trimChars program.toList).length = rest := by
    rw [hparts, trimStartChars_append blank, hfirst, List.cons_append, trimStartChars_cons dark,
      ← List.cons_append, List.drop_left]
  rw [Leads, SetApart, hgap, hrest, hparts]
  constructor
  · intro lead
    have separators := isSeparator_of_prefix solid blank lead
    rw [shellWords_separators separators] at lead
    exact ⟨separators, (shellWords_prefix_iff solid rest).mp lead⟩
  · rintro ⟨separators, ends⟩
    rw [shellWords_separators separators]
    exact (shellWords_prefix_iff solid rest).mpr ends

theorem stripped_solid {before cs after : List Char} (solid : Solid cs)
    (hbefore : ∀ x ∈ before, isSeparator x = true) (hafter : ∀ x ∈ after, isSeparator x = true) :
    stripped (before ++ cs ++ after) = cs := by
  have front : ((before ++ cs ++ after).dropWhile isSeparator) = cs ++ after := by
    obtain ⟨c, rest, rfl, dark⟩ := solid.first
    rw [List.append_assoc, List.dropWhile_append_of_pos hbefore, List.cons_append,
      List.dropWhile_cons_of_neg (by simp [isSeparator_of_dark dark])]
  have back : (cs ++ after).reverse.dropWhile isSeparator = cs.reverse := by
    obtain ⟨init, c, rfl, dark⟩ := solid.last
    rw [List.reverse_append,
      List.dropWhile_append_of_pos fun x hx => hafter x (List.mem_reverse.mp hx),
      List.reverse_append, List.reverse_singleton, List.singleton_append,
      List.dropWhile_cons_of_neg (by simp [isSeparator_of_dark dark])]
  rw [stripped, front, back, List.reverse_reverse]

/-- Where only separators stand at the ends, both readings of the ends agree. -/
theorem stripped_eq_trimChars {cs : List Char} (filled : trimChars cs ≠ [])
    (front : ∀ x ∈ cs.takeWhile isBlank, isSeparator x = true)
    (back : ∀ x ∈ cs.reverse.takeWhile isBlank, isSeparator x = true) :
    stripped cs = trimChars cs := by
  rcases solid_cases cs with none | ⟨before, body, after, rfl, blank, solid, blank'⟩
  · exact absurd (trimChars_blank none) filled
  have hbefore : (before ++ body ++ after).takeWhile isBlank = before := by
    obtain ⟨c, rest, rfl, dark⟩ := solid.first
    rw [List.append_assoc, List.takeWhile_append_of_pos blank, List.cons_append,
      List.takeWhile_cons_of_neg (by simp [dark]), List.append_nil]
  have hafter : (before ++ body ++ after).reverse.takeWhile isBlank = after.reverse := by
    obtain ⟨init, c, rfl, dark⟩ := solid.last
    rw [List.reverse_append, List.takeWhile_append_of_pos blank'.reverse, List.reverse_append,
      List.reverse_append, List.reverse_singleton, List.singleton_append, List.cons_append,
      List.takeWhile_cons_of_neg (by simp [dark]), List.append_nil]
  rw [hbefore] at front
  rw [hafter] at back
  rw [trimChars_solid solid blank blank']
  exact stripped_solid solid front fun x hx => back x (List.mem_reverse.mpr hx)

/-- **The promise is kept** for an allowed command that has only separators at its ends and behind
its program. -/
theorem vouched_of_setApart {policy : Policy} {command p : String}
    (allowed : policy.check command = .ok ()) (hp : p ∈ policy.programs)
    (admits : Admits p command) (apart : SetApart p command) (ended : WellEnded command) :
    Vouched policy command := by
  obtain ⟨filled, plain, -⟩ := check_eq_ok_iff.mp allowed
  obtain ⟨c, q, hfirst, -⟩ := admits.parts.1.first
  refine ⟨?_, p, hp, by simp [hfirst], (leads_iff admits).mpr apart⟩
  rwa [stripped_eq_trimChars filled apart.1 ended]

end Command

namespace Turn

open Command Directive Act

variable {project : Project} {d : Desk}

/-- A command is run exactly if it is allowed, and is run as it is written. -/
theorem run_called (project : Project) (command : String) (d : Desk) :
    (project.config.policy.check command = .ok () ∧ ((run project command).run d).2.world.ran =
      d.world.ran ++ [(command, d.agent.baseDir project)]) ∨
    (project.config.policy.check command ≠ .ok () ∧
      ((run project command).run d).2.world.ran = d.world.ran) := by
  unfold run
  cases project.config.policy.check command with
  | error reason => exact Or.inr ⟨nofun, rfl⟩
  | ok u =>
    refine Or.inl ⟨rfl, ?_⟩
    simp only [run_bind, run_get, run_execute]
    cases (d.world.execute command (d.agent.baseDir project)).1 with
    | error text => rfl
    | ok output =>
      simp only
      split <;> rfl

/-- **What the executor is called with** is allowed, and holds no syntax that chains, substitutes or
redirects between its blanks. An allowed program is the one that the shell starts exactly if it is
set apart by separators; where they stand at both ends too, all that the allow-list promises
holds. -/
theorem run_vouched {k : Dialect} (project : Project) (command : String) (d : Desk)
    (called : ((perform project (.run command : Directive k)).run d).2.world.ran ≠ d.world.ran) :
    ((perform project (.run command : Directive k)).run d).2.world.ran =
        d.world.ran ++ [(command, d.agent.baseDir project)] ∧
      Plain (Text.trimChars command.toList) ∧
      (∃ p ∈ project.config.policy.programs, Admits p command) ∧
      (∀ p ∈ project.config.policy.programs, Admits p command →
        (Leads p command ↔ SetApart p command)) ∧
      ((∃ p ∈ project.config.policy.programs, Admits p command ∧ SetApart p command) →
        WellEnded command → Vouched project.config.policy command) := by
  have hworld : (readied k d).world.ran = d.world.ran ∧
      (readied k d).agent.baseDir project = d.agent.baseDir project := by
    unfold readied
    split <;> exact ⟨rfl, rfl⟩
  rw [perform, run_bind, touchFirst_run] at called ⊢
  simp only at called ⊢
  rcases run_called project command (readied k d) with ⟨allowed, hran⟩ | ⟨-, hran⟩
  · obtain ⟨-, plain, admitted⟩ := check_eq_ok_iff.mp allowed
    refine ⟨by rw [hran, hworld.1, hworld.2], plain, admitted, fun p _ => leads_iff, ?_⟩
    rintro ⟨p, hp, admits, apart⟩ ended
    exact vouched_of_setApart allowed hp admits apart ended
  · exact absurd (hran.trans hworld.1) called

/-! ### A word that goes on -/

/-- The manager of a small project. -/
def shedDesk : Desk where
  agent := Agent.fresh ⟨0⟩ .manager "." (.folder ⟨"/p"⟩) none 0
  world := .start shed [] [] 1

theorem shed_called {command : String} (allowed : Policy.standard.check command = .ok ()) :
    ((perform shedProject (.run command : Directive .manager)).run shedDesk).2.world.ran =
      [(command, ⟨"/p"⟩)] := by
  rcases run_called shedProject command shedDesk with ⟨-, hran⟩ | ⟨refused, -⟩
  · exact hran
  · exact absurd allowed refused

theorem run_vouched_listing :
    ((perform shedProject (.run " ls -l" : Directive .manager)).run shedDesk).2.world.ran ≠
        shedDesk.world.ran ∧
      Vouched shedProject.config.policy " ls -l" := by
  have hran := shed_called (show Policy.standard.check " ls -l" = .ok () by decide +kernel)
  have called : ((perform shedProject (.run " ls -l" : Directive .manager)).run
      shedDesk).2.world.ran ≠ shedDesk.world.ran := by
    rw [hran]
    exact List.cons_ne_nil _ _
  obtain ⟨-, -, -, -, vouched⟩ := run_vouched shedProject " ls -l" shedDesk called
  have admits : Admits "ls" " ls -l" := show _ = true by decide +kernel
  have apart : SetApart "ls" " ls -l" :=
    ⟨List.all_eq_true.mp (by decide +kernel), by decide +kernel⟩
  have ended : WellEnded " ls -l" := List.all_eq_true.mp (by decide +kernel)
  exact ⟨called, vouched ⟨"ls", by decide, admits, apart⟩ ended⟩

/-- **A blank that is no separator** ends the word for the allow-list but not for the shell, which
is handed a program that is not listed. -/
theorem run_unvouched :
    ((perform shedProject (.run "ls\u00a0x" : Directive .manager)).run shedDesk).2.world.ran =
        [("ls\u00a0x", ⟨"/p"⟩)] ∧
      ¬ Vouched shedProject.config.policy "ls\u00a0x" := by
  refine ⟨shed_called (by decide +kernel), ?_⟩
  rintro ⟨-, p, hp, -, lead⟩
  have none : ∀ p ∈ Policy.standard.programs, ¬ Leads p "ls\u00a0x" := by
    unfold Leads
    decide +kernel
  exact none p hp lead

end Turn

end Arbor
