import Arbor.Proofs.Naming

/-! # Normal forms and where paths lead

From every location the steps of a path lead somewhere. A normal form leads where the path leads, and
two paths with different normal forms are told apart by where they lead, or by the slash in front. So
the normal form is the only one of its kind, and whatever goes on from a path may as well go on from
its normal form.

* `foldl_along_components`: the components of a path lead where its steps do.
* `onward_normalize`: the normal form leads where the path leads.
* `onward_form`: where a climb with names behind it leads.
* `normalize_eq_iff`: exactly when two paths have one normal form.
* `normalize_canonical`: the normal form is canonical, and joining respects it. -/

namespace Arbor

namespace Path

variable {p p' q q' : Path} {names names' : Location} {ups ups' : Nat}

/-! ### What the components mean -/

/-- Where the steps of a path lead from a location. -/
def onward (p : Path) (loc : Location) : Location := p.steps.foldl stepFrom loc

/-- Where one component leads from a location. -/
def along (loc : Location) : Component → Location
  | .root => loc
  | .here => loc
  | .up => loc.dropLast
  | .name n => loc ++ [n]

/-- Components lead where their pieces do. -/
theorem foldl_along_pieces (loc : Location) (pieces : List String) :
    (pieces.filterMap innerComponent?).foldl along loc =
      (pieces.filter fun piece => !piece.isEmpty).foldl stepFrom loc := by
  induction pieces generalizing loc with
  | nil => rfl
  | cons piece rest ih =>
    by_cases hempty : piece = ""
    · subst hempty
      exact ih loc
    rw [List.filter_cons_of_pos (by simpa using hempty), List.foldl_cons, ← ih]
    by_cases hhere : piece = "."
    · subst hhere
      rfl
    by_cases hup : piece = ".."
    · subst hup
      rfl
    have hsome : innerComponent? piece = some (.name piece) := by
      simp [innerComponent?, hempty, hhere, hup]
    rw [List.filterMap_cons, hsome]
    simp [along, stepFrom, hhere, hup]

/-- **The components of a path lead where its steps do.** -/
theorem foldl_along_components (p : Path) (loc : Location) :
    p.components.foldl along loc = p.onward loc := by
  obtain ⟨first, rest, hpieces⟩ := exists_pieces p
  by_cases absolute : p.isAbsolute = true
  · rw [components_of_absolute absolute, List.foldl_cons, onward]
    have hsteps : (p.steps.filter fun piece => !piece.isEmpty) = p.steps :=
      List.filter_eq_self.mpr fun piece h => (List.mem_filter.mp h).2
    exact (foldl_along_pieces loc p.steps).trans (by rw [hsteps])
  · have hcomponents : p.components =
        (firstComponent? first).toList ++ rest.filterMap innerComponent? := by
      simp only [components, hpieces, absolute, Bool.false_eq_true, if_false]
    have hfirst : (firstComponent? first).toList.foldl along loc =
        ([first].filterMap innerComponent?).foldl along loc := by
      unfold firstComponent?
      split
      · next here =>
        subst here
        rfl
      · rw [List.filterMap_cons]
        cases innerComponent? first <;> rfl
    rw [hcomponents, List.foldl_append, hfirst, ← List.foldl_append, ← List.filterMap_append,
      foldl_along_pieces, List.singleton_append, ← hpieces]
    rfl

/-- A component leads from the normal form to where it leads from the path. -/
theorem foldl_along_pushComponent (stack : List Component) (c : Component) (loc : Location) :
    (pushComponent stack c).reverse.foldl along loc = along (stack.reverse.foldl along loc) c := by
  cases c with
  | here => rfl
  | root => simp [pushComponent]
  | name n => simp [pushComponent]
  | up =>
    cases stack with
    | nil => rfl
    | cons top rest => cases top <;> simp [pushComponent, along]

theorem foldl_along_normalComponents (p : Path) (loc : Location) :
    p.normalComponents.foldl along loc = p.onward loc := by
  have hfold : ∀ (cs stack : List Component), (cs.foldl pushComponent stack).reverse.foldl along loc =
      cs.foldl along (stack.reverse.foldl along loc) := by
    intro cs
    induction cs with
    | nil => exact fun _ => rfl
    | cons c cs ih =>
      intro stack
      rw [List.foldl_cons, List.foldl_cons, ih, foldl_along_pushComponent]
  rw [normalComponents, hfold, ← foldl_along_components]
  rfl

/-! ### What the normal form means -/

theorem components_normalize (p : Path) : p.normalize.components = p.normalComponents := by
  obtain ⟨ups, names, hnames, hform⟩ := normalComponents_eq_form p
  rw [normalize, hform, components_form hnames]

/-- **The normal form leads where the path leads.** -/
theorem onward_normalize (p : Path) : p.normalize.onward = p.onward := by
  funext loc
  rw [← foldl_along_components, components_normalize, foldl_along_normalComponents]

/-- **Paths with one normal form mean one location.** -/
theorem destination_congr (h : p.normalize = q.normalize) : p.destination = q.destination := by
  have honward : p.onward = q.onward := by rw [← onward_normalize, h, onward_normalize]
  exact congrFun honward []

/-- **Where a climb with names behind it leads:** from a location to a place above it, and from there
down the names. -/
theorem onward_form (p : Path) (hform : p.normalComponents = form p.isAbsolute ups names)
    (loc : Location) : p.onward loc = loc.take (loc.length - ups) ++ names := by
  have hup : ∀ (ups : Nat) (loc : Location),
      (List.replicate ups Component.up).foldl along loc = loc.take (loc.length - ups) := by
    intro ups
    induction ups with
    | zero => simp
    | succ ups ih =>
      intro loc
      rw [List.replicate_succ, List.foldl_cons, ih, along, List.length_dropLast,
        List.dropLast_eq_take, List.take_take]
      congr 1
      omega
  have hdown : ∀ (names loc : Location), (names.map Component.name).foldl along loc = loc ++ names := by
    intro names
    induction names with
    | nil => simp
    | cons n rest ih =>
      intro loc
      rw [List.map_cons, List.foldl_cons, ih, along, List.append_assoc, List.singleton_append]
  have hroot : (if p.isAbsolute then [Component.root] else []).foldl along loc = loc := by
    split_ifs <;> rfl
  rw [← foldl_along_normalComponents, hform, form, List.foldl_append, List.foldl_append, hroot, hup,
    hdown]

/-- A climb and the names behind it are told by where they lead. -/
theorem form_eq_of_onward (hp : p.normalComponents = form p.isAbsolute ups names)
    (hq : q.normalComponents = form q.isAbsolute ups' names') (h : p.onward = q.onward) :
    ups = ups' ∧ names = names' := by
  have hlead : ∀ loc : Location,
      loc.take (loc.length - ups) ++ names = loc.take (loc.length - ups') ++ names' := fun loc => by
    rw [← onward_form p hp, ← onward_form q hq, h]
  obtain rfl : names = names' := by simpa using hlead []
  -- a location that is deep enough tells how far up the path goes
  have hdeep := congrArg List.length (hlead (List.replicate (ups + ups') ""))
  simp only [List.length_append, List.length_take, List.length_replicate] at hdeep
  exact ⟨by omega, rfl⟩

/-- **Two paths have one normal form** exactly if they lead alike, both from the root or neither. -/
theorem normalize_eq_iff :
    p.normalize = q.normalize ↔ p.isAbsolute = q.isAbsolute ∧ p.onward = q.onward := by
  constructor
  · intro h
    exact ⟨by rw [← normalize_isAbsolute, h, normalize_isAbsolute],
      by rw [← onward_normalize, h, onward_normalize]⟩
  · rintro ⟨hroot, honward⟩
    obtain ⟨ups, names, -, hp⟩ := normalComponents_eq_form p
    obtain ⟨ups', names', -, hq⟩ := normalComponents_eq_form q
    obtain ⟨rfl, rfl⟩ := form_eq_of_onward hp hq honward
    rw [normalize, normalize, hp, hq, hroot]

/-! ### Going on from a path -/

/-- A relative path leads on from where another leads. -/
theorem onward_join (rel : q.isAbsolute = false) (loc : Location) :
    (p.join q).onward loc = q.onward (p.onward loc) := by
  rw [onward, steps_join rel, List.foldl_append, onward, onward]

/-- **Joining respects normal forms:** only those of the two paths matter. -/
theorem normalize_join_congr (hp : p.normalize = p'.normalize) (hq : q.normalize = q'.normalize) :
    (p.join q).normalize = (p'.join q').normalize := by
  obtain ⟨hproot, hponward⟩ := normalize_eq_iff.mp hp
  obtain ⟨hqroot, hqonward⟩ := normalize_eq_iff.mp hq
  cases habs : q.isAbsolute with
  | true =>
    have habs' : q'.isAbsolute = true := hqroot ▸ habs
    rw [join, if_pos habs, join, if_pos habs', hq]
  | false =>
    have habs' : q'.isAbsolute = false := hqroot ▸ habs
    refine normalize_eq_iff.mpr ⟨?_, ?_⟩
    · rw [join_isAbsolute habs, join_isAbsolute habs', hproot]
    · funext loc
      rw [onward_join habs, onward_join habs', hponward, hqonward]

/-- **The normal form is canonical, and joining respects it.** It is written as the root, if the path
is absolute, then a climb, then names; it is its own normal form; and it leads where the path leads,
which no other normal form does that is absolute where it is. A path may be normalized before another
is put behind it, and a base before a name is resolved against it. -/
theorem normalize_canonical :
    (∀ p : Path,
      (∃ ups names, Location.Named names ∧
        p.normalize = ofComponents (form p.isAbsolute ups names) ∧
        p.normalize.components = form p.isAbsolute ups names) ∧
      p.normalize.isAbsolute = p.isAbsolute ∧
      p.normalize.normalize = p.normalize ∧
      p.normalize.onward = p.onward) ∧
    (∀ p q : Path, p.normalize = q.normalize ↔ p.isAbsolute = q.isAbsolute ∧ p.onward = q.onward) ∧
    (∀ base q : Path,
      (base.join q).normalize = (base.normalize.join q).normalize ∧
      (base.join q).normalize = (base.join q.normalize).normalize) ∧
    ∀ (base : Path) (name : String),
      Project.resolve base name = Project.resolve base.normalize name := by
  have hself : ∀ p : Path, p.normalize = p.normalize.normalize := fun p => (isNormal_normalize p).symm
  refine ⟨fun p => ?_, fun p q => normalize_eq_iff, fun base q => ?_, fun base name => ?_⟩
  · obtain ⟨ups, names, hnames, hform⟩ := normalComponents_eq_form p
    refine ⟨⟨ups, names, hnames, congrArg ofComponents hform, ?_⟩, normalize_isAbsolute p,
      isNormal_normalize p, onward_normalize p⟩
    rw [components_normalize, hform]
  · exact ⟨normalize_join_congr (hself base) rfl, normalize_join_congr rfl (hself q)⟩
  · exact normalize_join_congr (hself base) rfl

end Path

end Arbor
