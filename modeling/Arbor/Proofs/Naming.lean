import Arbor.Proofs.Containment

/-! # How files of a project are named

A file of a project is shown by what stands behind the root in its normal form. The name says which
file it is: read as a path, it leads from the root to the file again. So no two files share a name,
also where the way up from the root of the file system is kept in the normal form.

* `exists_rest`: behind the root, a path in the project is a climb and a list of names.
* `normalComponents_displayName`: read as a path, a display name is what stands behind the root.
* `displayName_injOn`: no two files of a project share a name.
* `docPath_of_holds`: the notes of a folder of the project are such a file. -/

namespace Arbor

namespace Path

variable {p : Path} {ups : Nat} {names : Location}

/-- The path is its own normal form. -/
def IsNormal (p : Path) : Prop := p.normalize = p

theorem ofComponents_normalComponents (normal : p.IsNormal) : ofComponents p.normalComponents = p :=
  normal

/-- Normal forms are normal. -/
theorem isNormal_form (rooted : Bool) (hnames : names.Named) :
    (ofComponents (form rooted ups names)).IsNormal := by
  rw [IsNormal, normalize, normalComponents_form hnames]

theorem isNormal_normalize (p : Path) : p.normalize.IsNormal := by
  obtain ⟨ups, names, hnames, hform⟩ := normalComponents_eq_form p
  rw [normalize, hform]
  exact isNormal_form p.isAbsolute hnames

/-- Only an absolute path has a root in its normal form. -/
theorem isAbsolute_of_root_mem (h : .root ∈ p.normalComponents) : p.isAbsolute = true := by
  obtain ⟨ups, names, -, hform⟩ := normalComponents_eq_form p
  rw [hform] at h
  cases habs : p.isAbsolute with
  | true => rfl
  | false => simp [form, habs] at h

/-- An absolute normal form is written as its steps behind the root. -/
theorem ofComponents_form_eq_pathOf (ups : Nat) (names : Location) :
    ofComponents (form true ups names) = FileSystem.pathOf (track ups names) :=
  ofComponents_form true ups names

/-- A name behind an absolute normal form makes a longer one. -/
theorem joinName_form {t : String} (hnames : names.Named) (ht : IsName t) :
    (ofComponents (form true ups names)).joinName t = ofComponents (form true ups (names ++ [t])) := by
  have hsteps : ∀ s ∈ track ups names, '/' ∉ s.toList ∧ s ≠ "" := fun s hs =>
    ⟨(visible_of_mem_track hnames hs).1, (visible_of_mem_track hnames hs).2.1⟩
  rw [ofComponents_form_eq_pathOf, ofComponents_form_eq_pathOf,
    joinName_pathOf_of_slashless hsteps ht.1, track, track, List.append_assoc]

theorem fileName?_form (rooted : Bool) (hnames : names.Named) {n : String}
    (h : (ofComponents (form rooted ups names)).fileName? = some n) : IsName n := by
  rw [fileName?, components_form hnames] at h
  split at h
  · next last hlast =>
    cases h
    have hmem := List.mem_of_getLast? hlast
    have hname : n ∈ names := by cases rooted <;> simpa [form] using hmem
    exact hnames n hname
  · cases h

/-- A root is followed by a climb and a list of names, of which any front can be dropped. -/
theorem exists_form_of_append {front rest : List Component} (hnames : names.Named)
    (h : form true ups names = .root :: front ++ rest) :
    ∃ ups' names', Location.Named names' ∧ rest = form false ups' names' := by
  have hback : List.replicate ups .up ++ names.map .name = front ++ rest := (List.cons.inj h).2
  rcases List.append_eq_append_iff.mp hback with ⟨mid, hfront, hmap⟩ | ⟨mid, hups, hrest⟩
  · -- the front ends among the names
    obtain ⟨low, high, rfl, -, hhigh⟩ := List.map_eq_append_iff.mp hmap
    exact ⟨0, high, fun n hn => hnames n (List.mem_append_right low hn), by simp [form, hhigh]⟩
  · -- the front ends in the climb
    obtain ⟨-, -, hmid⟩ := List.replicate_eq_append_iff.mp hups
    exact ⟨mid.length, names, hnames, by rw [hrest, hmid]; simp [form]⟩

end Path

open Arbor.Path

namespace Project

variable {project : Project} {p q : Path}

/-! ### What stands behind the root -/

/-- **Behind the root,** a path in the project is a climb and a list of names. -/
theorem exists_rest (rooted : project.root.isAbsolute = true) (held : project.holds p = true) :
    ∃ ups names, Location.Named names ∧
      p.normalComponents = project.root.normalComponents ++ form false ups names := by
  obtain ⟨front, hfront⟩ : ∃ front, project.root.normalComponents = .root :: front :=
    ⟨_, normalComponents_eq_destination rooted⟩
  obtain ⟨rest, hrest⟩ := List.isPrefixOf_iff_prefix.mp held
  obtain ⟨ups, names, hnames, hform⟩ := normalComponents_eq_form p
  rw [hfront] at hrest
  have absolute : p.isAbsolute = true := isAbsolute_of_root_mem (by rw [← hrest]; simp)
  rw [absolute] at hform
  obtain ⟨ups', names', hnames', rfl⟩ := exists_form_of_append hnames (hform ▸ hrest.symm)
  exact ⟨ups', names', hnames', by rw [hfront, hrest]⟩

/-- **A display name says which file it is:** read as a path, it is what stands behind the root. -/
theorem normalComponents_displayName (rooted : project.root.isAbsolute = true)
    (held : project.holds p = true) :
    p.normalComponents =
      project.root.normalComponents ++ (Path.mk (project.displayName p)).normalComponents := by
  obtain ⟨ups, names, hnames, hp⟩ := exists_rest rooted held
  have hrest : p.normalComponents.drop project.root.normalComponents.length = form false ups names := by
    rw [hp, List.drop_left]
  have hname : (Path.mk (project.displayName p)).normalComponents = form false ups names := by
    rw [displayName, if_pos held]
    simp only [hrest]
    split_ifs with hnil
    · -- the root itself is shown as a dot, which leads nowhere
      rw [List.isEmpty_iff.mp hnil]
      decide
    · have htext : String.intercalate "/" ((form false ups names).map Component.text) =
          (ofComponents (form false ups names)).text := by
        rw [ofComponents_form]
        simp [form, track, Component.text, Function.comp_def]
      rw [htext]
      exact normalComponents_form hnames
  rw [hname, hp]

/-- **No two files of a project share a name.** -/
theorem displayName_injOn (rooted : project.root.isAbsolute = true) (hp : p.IsNormal)
    (hq : q.IsNormal) (pheld : project.holds p = true) (qheld : project.holds q = true)
    (h : project.displayName p = project.displayName q) : p = q := by
  have hcomponents : p.normalComponents = q.normalComponents := by
    rw [normalComponents_displayName rooted pheld, normalComponents_displayName rooted qheld, h]
  rw [← ofComponents_normalComponents hp, ← ofComponents_normalComponents hq, hcomponents]

/-! ### The notes of a folder -/

/-- The notes of a folder of the project have one name more than the folder. -/
theorem docPath_form (ups : Nat) {names : Location} (hnames : names.Named) :
    ∃ t, IsName t ∧ docPath (ofComponents (form true ups names)) =
      ofComponents (form true ups (names ++ [t])) := by
  have hstem : '/' ∉ (folderStem (ofComponents (form true ups names))).toList := by
    unfold folderStem
    cases hname : (ofComponents (form true ups names)).fileName? with
    | none => decide
    | some n => exact (fileName?_form true hnames hname).1
  exact ⟨_, isName_notes hstem, joinName_form hnames (isName_notes hstem)⟩

/-- A path in the project is absolute. -/
theorem isAbsolute_of_holds (rooted : project.root.isAbsolute = true)
    (held : project.holds p = true) : p.isAbsolute = true := by
  obtain ⟨ups, names, -, hrest⟩ := exists_rest rooted held
  refine isAbsolute_of_root_mem ?_
  rw [hrest, normalComponents_eq_destination rooted]
  simp [form]

/-- **The notes of a folder of the project** are a file of the project. -/
theorem docPath_of_holds (rooted : project.root.isAbsolute = true) (normal : p.IsNormal)
    (held : project.holds p = true) : (docPath p).IsNormal ∧ project.holds (docPath p) = true := by
  have absolute := isAbsolute_of_holds rooted held
  have hp : p.normalComponents = form true p.overshoot p.destination :=
    normalComponents_eq_destination absolute
  obtain ⟨t, ht, hdoc⟩ := docPath_form p.overshoot (named_destination p)
  rw [← hp, ofComponents_normalComponents normal] at hdoc
  have hnames := (named_destination p).concat ht
  rw [hdoc]
  refine ⟨isNormal_form true hnames, ?_⟩
  rw [holds, contains, List.isPrefixOf_iff_prefix] at held ⊢
  rw [normalComponents_form hnames, form_concat, ← hp]
  exact held.trans (List.prefix_append _ _)

end Project

end Arbor
