import Arbor.Text.Blank
import Mathlib.Data.List.Basic

/-! # Blanks at the ends of a text

A text is blank, or it has blanks at its ends and a solid part between them; trimming leaves the
solid part.

* `solid_cases`: the parts of a text.
* `trimChars_solid`: what trimming leaves.
* `trimChars_append_solid`: the end of a text is trimmed up to a solid part, whatever stands before. -/

namespace Arbor.Text

/-- There are only blanks. -/
def Blank (cs : List Char) : Prop := ∀ c ∈ cs, isBlank c = true

/-- The characters neither start nor end with a blank. -/
structure Solid (cs : List Char) : Prop where
  first : ∃ c rest, cs = c :: rest ∧ isBlank c = false
  last : ∃ init c, cs = init ++ [c] ∧ isBlank c = false

theorem blank_nil : Blank [] := nofun

theorem blank_singleton {c : Char} (h : isBlank c = true) : Blank [c] :=
  List.forall_mem_singleton.mpr h

theorem Blank.append {cs cs' : List Char} (h : Blank cs) (h' : Blank cs') : Blank (cs ++ cs') :=
  List.forall_mem_append.mpr ⟨h, h'⟩

theorem Blank.reverse {cs : List Char} (h : Blank cs) : Blank cs.reverse :=
  fun c hc => h c (List.mem_reverse.mp hc)

theorem solid_iff {cs : List Char} : Solid cs ↔
    (∃ c, cs.head? = some c ∧ isBlank c = false) ∧ ∃ c, cs.getLast? = some c ∧ isBlank c = false := by
  constructor
  · rintro ⟨⟨c, rest, hfirst, dark⟩, init, b, hlast, dark'⟩
    exact ⟨⟨c, by rw [hfirst]; rfl, dark⟩, b, by rw [hlast, List.getLast?_concat], dark'⟩
  · rintro ⟨⟨c, hfirst, dark⟩, b, hlast, dark'⟩
    obtain ⟨rest, hrest⟩ := List.head?_eq_some_iff.mp hfirst
    obtain ⟨init, hinit⟩ := List.getLast?_eq_some_iff.mp hlast
    exact ⟨⟨c, rest, hrest, dark⟩, init, b, hinit, dark'⟩

instance : DecidablePred Solid := fun cs =>
  decidable_of_iff (cs.head?.any (!isBlank ·) = true ∧ cs.getLast?.any (!isBlank ·) = true)
    (by simp only [solid_iff, Option.any_eq_true, Bool.not_eq_true'])

theorem getLast?_append_solid {cs : List Char} (front : List Char) (h : Solid cs) :
    (front ++ cs).getLast? = cs.getLast? := by
  obtain ⟨init, c, rfl, -⟩ := h.last
  rw [← List.append_assoc, List.getLast?_concat, List.getLast?_concat]

/-! ### Trimming -/

theorem trimStartChars_append {gap : List Char} (blank : Blank gap) (rest : List Char) :
    trimStartChars (gap ++ rest) = trimStartChars rest :=
  List.dropWhile_append_of_pos blank

theorem trimStartChars_cons {c : Char} {rest : List Char} (dark : isBlank c = false) :
    trimStartChars (c :: rest) = c :: rest := by
  rw [trimStartChars, List.dropWhile_cons_of_neg (by simp [dark])]

theorem Solid.trimStartChars {cs : List Char} (solid : Solid cs) (rest : List Char) :
    trimStartChars (cs ++ rest) = cs ++ rest := by
  obtain ⟨c, more, rfl, dark⟩ := solid.first
  exact trimStartChars_cons dark

theorem trimEndChars_append {cs gap : List Char} {c : Char} (dark : isBlank c = false)
    (blank : Blank gap) : trimEndChars (cs ++ [c] ++ gap) = cs ++ [c] := by
  rw [trimEndChars, List.reverse_append, List.dropWhile_append_of_pos blank.reverse,
    List.reverse_append, List.reverse_singleton, List.singleton_append,
    List.dropWhile_cons_of_neg (by simp [dark]), ← List.singleton_append, List.reverse_append,
    List.reverse_reverse, List.reverse_singleton]

/-- **Trimming leaves the solid part** of a text. -/
theorem trimChars_solid {before cs after : List Char} (solid : Solid cs)
    (blankBefore : Blank before) (blankAfter : Blank after) :
    trimChars (before ++ cs ++ after) = cs := by
  obtain ⟨c, rest, hfirst, dark⟩ := solid.first
  obtain ⟨init, b, hlast, dark'⟩ := solid.last
  rw [trimChars, List.append_assoc, trimStartChars_append blankBefore, hfirst, List.cons_append,
    trimStartChars_cons dark, ← List.cons_append, ← hfirst, hlast,
    trimEndChars_append dark' blankAfter]

/-- Nothing is trimmed off a solid text. -/
theorem Solid.trimChars {cs : List Char} (solid : Solid cs) : trimChars cs = cs := by
  have h := trimChars_solid solid blank_nil blank_nil
  rwa [List.nil_append, List.append_nil] at h

theorem trimChars_blank {cs : List Char} (blank : Blank cs) : trimChars cs = [] := by
  rw [trimChars, ← List.append_nil cs, trimStartChars_append blank]
  rfl

/-! ### The parts of a text -/

/-- A text is blank or starts somewhere. -/
theorem blank_cases (cs : List Char) :
    Blank cs ∨ ∃ gap c rest, cs = gap ++ c :: rest ∧ Blank gap ∧ isBlank c = false := by
  induction cs with
  | nil => exact Or.inl blank_nil
  | cons b cs ih =>
    by_cases hb : isBlank b = true
    · rcases ih with blank | ⟨gap, c, rest, rfl, blank, dark⟩
      · exact Or.inl (List.forall_mem_cons.mpr ⟨hb, blank⟩)
      · exact Or.inr ⟨b :: gap, c, rest, rfl, List.forall_mem_cons.mpr ⟨hb, blank⟩, dark⟩
    · exact Or.inr ⟨[], b, cs, rfl, blank_nil, by simpa using hb⟩

/-- **A text is blank or has a solid part** between its blanks. -/
theorem solid_cases (cs : List Char) : Blank cs ∨ ∃ before body after,
    cs = before ++ body ++ after ∧ Blank before ∧ Solid body ∧ Blank after := by
  rcases blank_cases cs with blank | ⟨before, c, rest, rfl, blank, dark⟩
  · exact Or.inl blank
  · -- the last solid character is the first one from behind
    rcases blank_cases (c :: rest).reverse with none | ⟨gap, b, init, hback, blank', dark'⟩
    · exact absurd (none c (by simp)) (by simp [dark])
    · have hbody : c :: rest = init.reverse ++ [b] ++ gap.reverse := by
        rw [← List.reverse_reverse (c :: rest), hback]
        simp
      refine Or.inr ⟨before, init.reverse ++ [b], gap.reverse, by simp [hbody],
        blank, ⟨?_, _, b, rfl, dark'⟩, blank'.reverse⟩
      cases hinit : init.reverse with
      | nil => exact ⟨b, [], rfl, dark'⟩
      | cons d more =>
        rw [hinit] at hbody
        obtain ⟨rfl, -⟩ := List.cons.inj hbody
        exact ⟨c, _, rfl, dark⟩

/-- The end of a text is trimmed up to a solid part, whatever stands before it. -/
theorem trimChars_append_solid {cs after : List Char} (front : List Char) (solid : Solid cs)
    (blank : Blank after) : trimChars (front ++ cs ++ after) = trimStartChars (front ++ cs) := by
  rcases blank_cases (front ++ cs) with blank' | ⟨gap, c, rest, heq, hgap, dark⟩
  · obtain ⟨b, more, rfl, dark⟩ := solid.first
    exact absurd (blank' b (by simp)) (by simp [dark])
  · -- both texts end with the last character of the solid part
    have hlast : (c :: rest).getLast? = cs.getLast? := by
      rw [← getLast?_append_solid front solid, heq,
        List.getLast?_append_of_ne_nil _ (List.cons_ne_nil c rest)]
    obtain ⟨b, hb, dark'⟩ := (solid_iff.mp solid).2
    have hsolid : Solid (c :: rest) := solid_iff.mpr ⟨⟨c, rfl, dark⟩, b, hlast.trans hb, dark'⟩
    rw [heq, trimChars_solid hsolid hgap blank, trimStartChars_append hgap, trimStartChars_cons dark]

theorem solid_trimChars {cs : List Char} (filled : trimChars cs ≠ []) : Solid (trimChars cs) := by
  rcases solid_cases cs with blank | ⟨before, body, after, rfl, blank, solid, blank'⟩
  · exact absurd (trimChars_blank blank) filled
  · rwa [trimChars_solid solid blank blank']

end Arbor.Text
