import Arbor.Proofs.Joining

/-! # Where an absolute path leads

An absolute path means a location: its steps are taken one after the other from the root, where a `.`
stays and a `..` leads to the parent, and the root is its own parent. The normal form folds the same
steps, but keeps every `..` that it meets at the root. So a path that never climbs above the root has
its location as normal form, and any other has a climb in front of it.

* `normalComponents_eq_destination`: the normal form is a climb and the location that the path means.
* `contains_iff_of_absolute`: exactly when one absolute path lies in another.
* `contains_iff_leads_inside`: who passes the check is inside, and below the root all who are inside
  pass it. -/

namespace Arbor

namespace Path

variable {p q scope base : Path} {loc names : Location} {steps : List String}

/-! ### The meaning of an absolute path -/

/-- Where one step leads from a location. -/
def stepFrom (loc : Location) (step : String) : Location :=
  if step = "." then loc else if step = ".." then loc.dropLast else loc ++ [step]

/-- **The location that an absolute path means.** -/
def destination (p : Path) : Location := p.steps.foldl stepFrom []

/-- How many of the steps lead up from the root. -/
def bumps : Location → List String → Nat
  | _, [] => 0
  | loc, step :: rest => (if step = ".." ∧ loc = [] then 1 else 0) + bumps (stepFrom loc step) rest

/-- How often an absolute path leads up from the root. -/
def overshoot (p : Path) : Nat := bumps [] p.steps

/-- The location that a name means as seen from a folder; an absolute one stands alone. -/
def seenFrom (base : Path) (name : String) : Location :=
  if (Path.mk (Text.trim name)).isAbsolute then (Path.mk (Text.trim name)).destination
  else (Path.mk (Text.trim name)).steps.foldl stepFrom base.destination

theorem stepFrom_here (loc : Location) : stepFrom loc "." = loc := if_pos rfl

theorem stepFrom_up (loc : Location) : stepFrom loc ".." = loc.dropLast := by simp [stepFrom]

theorem stepFrom_name {n : String} (loc : Location) (h : IsName n) : stepFrom loc n = loc ++ [n] := by
  simp [stepFrom, h.2.2.1, h.2.2.2]

theorem named_stepFrom {step : String} (hloc : loc.Named) (hstep : '/' ∉ step.toList ∧ step ≠ "") :
    Location.Named (stepFrom loc step) := by
  unfold stepFrom
  split_ifs with here up
  · exact hloc
  · exact fun n hn => hloc n (List.dropLast_subset loc hn)
  · exact hloc.concat ⟨hstep.1, hstep.2, here, up⟩

theorem named_foldl_stepFrom (hloc : loc.Named)
    (hsteps : ∀ step ∈ steps, '/' ∉ step.toList ∧ step ≠ "") :
    Location.Named (steps.foldl stepFrom loc) := by
  induction steps generalizing loc with
  | nil => exact hloc
  | cons step rest ih =>
    exact ih (named_stepFrom hloc (hsteps step List.mem_cons_self)) fun s hs =>
      hsteps s (List.mem_cons_of_mem step hs)

theorem named_destination (p : Path) : p.destination.Named :=
  named_foldl_stepFrom Location.Named.nil fun _ h => FileSystem.slashless_of_mem_steps h

/-! ### The normal form -/

/-- Behind its root, an absolute path has the components of its steps. -/
theorem components_of_absolute (absolute : p.isAbsolute = true) :
    p.components = .root :: p.steps.filterMap innerComponent? := by
  have hsilent : innerComponent? "" = none := by decide
  have hsteps : p.steps.filterMap innerComponent? = p.pieces.filterMap innerComponent? := by
    rw [steps, List.filterMap_filter]
    refine List.filterMap_congr fun piece _ => ?_
    by_cases hempty : piece = ""
    · simp [hempty, hsilent]
    · simp [hempty]
  obtain ⟨first, rest, hpieces⟩ := exists_pieces p
  have hfirst : first = "" := by
    obtain ⟨cs, hcs⟩ : ∃ cs, p.text.toList = '/' :: cs := by
      cases htext : p.text.toList with
      | nil => simp [isAbsolute, htext] at absolute
      | cons c cs =>
        obtain rfl : c = '/' := by simpa [isAbsolute, htext] using absolute
        exact ⟨cs, rfl⟩
    have hsplit : p.pieces = "" :: (cs.splitOn '/').map String.ofList := by
      rw [pieces, hcs, ← List.nil_append ('/' :: cs), List.splitOn_append_cons_self]
      rfl
    rw [hpieces] at hsplit
    exact (List.cons.inj hsplit).1
  unfold components
  rw [hsteps, hpieces, hfirst, List.filterMap_cons, hsilent]
  exact if_pos absolute

/-- **The normal form takes the same steps,** and keeps those that lead up from the root. -/
theorem foldl_pushComponent_steps (ups : Nat) (names : Location)
    (hsteps : ∀ step ∈ steps, step ≠ "") :
    (steps.filterMap innerComponent?).foldl pushComponent (form true ups names).reverse =
      (form true (ups + bumps names steps) (steps.foldl stepFrom names)).reverse := by
  induction steps generalizing ups names with
  | nil => rfl
  | cons step rest ih =>
    have hrest : ∀ s ∈ rest, s ≠ "" := fun s hs => hsteps s (List.mem_cons_of_mem step hs)
    by_cases hhere : step = "."
    · subst hhere
      have hnone : innerComponent? "." = none := by decide
      simp [hnone, bumps, stepFrom_here, ih ups names hrest]
    by_cases hup : step = ".."
    · subst hup
      have hsome : innerComponent? ".." = some .up := by decide
      rw [List.filterMap_cons, hsome, List.foldl_cons, List.foldl_cons, bumps, stepFrom_up]
      rcases List.eq_nil_or_concat' names with rfl | ⟨front, n, rfl⟩
      · -- the way up from the root stays in the normal form
        rw [pushComponent_up, ih (ups + 1) [] hrest]
        simp [Nat.add_assoc]
      · have hpush : pushComponent (form true ups (front ++ [n])).reverse .up =
            (form true ups front).reverse := by
          rw [form_concat]
          simp [pushComponent]
        rw [hpush, ih ups front hrest]
        simp
    · have hsome : innerComponent? step = some (.name step) := by
        simp [innerComponent?, hsteps step List.mem_cons_self, hhere, hup]
      have hstep : stepFrom names step = names ++ [step] := by simp [stepFrom, hhere, hup]
      have hpush : pushComponent (form true ups names).reverse (.name step) =
          (form true ups (names ++ [step])).reverse := by
        rw [form_concat]
        simp [pushComponent]
      rw [List.filterMap_cons, hsome, List.foldl_cons, List.foldl_cons, bumps, hstep, hpush,
        ih ups (names ++ [step]) hrest]
      simp [hup]

/-- **The normal form of an absolute path** is a climb and the location that the path means. -/
theorem normalComponents_eq_destination (absolute : p.isAbsolute = true) :
    p.normalComponents = form true p.overshoot p.destination := by
  have hfold := foldl_pushComponent_steps 0 [] fun step hs =>
    (FileSystem.slashless_of_mem_steps (p := p) hs).2
  rw [Nat.zero_add] at hfold
  rw [normalComponents, components_of_absolute absolute, List.foldl_cons]
  exact (congrArg List.reverse hfold).trans (List.reverse_reverse _)

theorem normalize_eq_destination (absolute : p.isAbsolute = true) :
    p.normalize = ofComponents (form true p.overshoot p.destination) := by
  rw [normalize, normalComponents_eq_destination absolute]

theorem isAbsolute_normalize (absolute : p.isAbsolute = true) : p.normalize.isAbsolute = true :=
  (normalize_isAbsolute p).trans absolute

/-- Steps up from the root stay at the root, and are counted. -/
theorem foldl_stepFrom_track (ups : Nat) (hnames : Location.Named names) :
    (track ups names).foldl stepFrom [] = names ∧ bumps [] (track ups names) = ups := by
  have hdown : ∀ (loc : Location) {names : Location}, names.Named →
      names.foldl stepFrom loc = loc ++ names ∧ bumps loc names = 0 := by
    intro loc names
    induction names generalizing loc with
    | nil => exact fun _ => ⟨(List.append_nil loc).symm, rfl⟩
    | cons n rest ih =>
      intro h
      have hn : IsName n := h n List.mem_cons_self
      obtain ⟨hfold, hbumps⟩ := ih (loc ++ [n]) fun m hm => h m (List.mem_cons_of_mem n hm)
      rw [List.foldl_cons, bumps, stepFrom_name loc hn, hfold, hbumps]
      simp [hn.2.2.2]
  induction ups with
  | zero => exact hdown [] hnames
  | succ ups ih =>
    have htrack : track (ups + 1) names = ".." :: track ups names := rfl
    rw [htrack, List.foldl_cons, bumps, stepFrom_up, List.dropLast_nil, ih.1, ih.2]
    simp [Nat.add_comm]

/-- **The normal form means what the path means,** and leads up from the root as often. -/
theorem destination_normalize (absolute : p.isAbsolute = true) :
    p.normalize.destination = p.destination ∧ p.normalize.overshoot = p.overshoot := by
  rw [destination, overshoot, normalize_eq_destination absolute, steps_form (named_destination p)]
  exact foldl_stepFrom_track p.overshoot (named_destination p)

/-! ### Containment -/

/-- When one climb with names behind it starts another. -/
theorem form_prefix_iff {ups ups' : Nat} {names names' : Location} :
    form true ups names <+: form true ups' names' ↔
      (names = [] ∧ ups ≤ ups') ∨ (ups = ups' ∧ names <+: names') := by
  have hcons : ∀ n (loc : Location), form true (n + 1) loc =
      .root :: .up :: (List.replicate n .up ++ loc.map .name) := fun n loc => rfl
  have hzero : ∀ loc : Location, form true 0 loc = .root :: loc.map .name := fun loc => rfl
  induction ups generalizing ups' with
  | zero =>
    rw [hzero]
    cases ups' with
    | zero =>
      rw [hzero, List.cons_prefix_cons, map_name_prefix_iff]
      simp only [true_and, le_refl, and_true]
      exact ⟨Or.inr, fun h => h.elim (fun hnil => hnil ▸ List.nil_prefix) id⟩
    | succ ups' =>
      rw [hcons, List.cons_prefix_cons]
      cases names with
      | nil => simp
      | cons n rest => simp [List.cons_prefix_cons]
  | succ ups ih =>
    cases ups' with
    | zero =>
      rw [hcons, hzero, List.cons_prefix_cons]
      cases names' with
      | nil => simp
      | cons n rest => simp [List.cons_prefix_cons]
    | succ ups' =>
      have hstep := @ih ups'
      rw [form, form] at hstep
      rw [hcons, hcons, List.cons_prefix_cons, List.cons_prefix_cons]
      simp only [if_true, List.cons_append, List.nil_append, List.cons_prefix_cons,
        true_and] at hstep
      simp only [true_and, hstep, Nat.add_le_add_iff_right, Nat.add_right_cancel_iff]

/-- **Exactly when one absolute path lies in another:** it means a location below, and leads up from
the root as often; where the scope means the root, it leads up from it at least as often. -/
theorem contains_iff_of_absolute (hscope : scope.isAbsolute = true) (hp : p.isAbsolute = true) :
    scope.contains p = true ↔
      (scope.destination = [] ∧ scope.overshoot ≤ p.overshoot) ∨
      (scope.overshoot = p.overshoot ∧ scope.destination <+: p.destination) := by
  rw [contains, List.isPrefixOf_iff_prefix, normalComponents_eq_destination hscope,
    normalComponents_eq_destination hp, form_prefix_iff]

/-- Who passes the check is inside. -/
theorem destination_prefix_of_contains (hscope : scope.isAbsolute = true)
    (hp : p.isAbsolute = true) (h : scope.contains p = true) :
    scope.destination <+: p.destination := by
  rcases (contains_iff_of_absolute hscope hp).mp h with ⟨hroot, -⟩ | ⟨-, hinside⟩
  · rw [hroot]
    exact List.nil_prefix
  · exact hinside

/-! ### Names seen from a folder -/

theorem isAbsolute_join (absolute : base.isAbsolute = true) : (base.join q).isAbsolute = true := by
  cases hq : q.isAbsolute with
  | true => rwa [join, if_pos hq]
  | false => exact (join_isAbsolute hq).trans absolute

/-- A relative path leads on from where the folder is. -/
theorem destination_join (rel : q.isAbsolute = false) :
    (base.join q).destination = q.steps.foldl stepFrom base.destination := by
  rw [destination, steps_join rel, List.foldl_append, destination]

/-- **What a resolved name means** is what the name means as seen from the folder. -/
theorem destination_resolve (name : String) (absolute : base.isAbsolute = true) :
    (Project.resolve base name).destination = seenFrom base name := by
  rw [Project.resolve, (destination_normalize (isAbsolute_join absolute)).1, seenFrom]
  split_ifs with hname
  · rw [join, if_pos hname]
  · exact destination_join (by simpa using hname)

/-- **Who passes the check is inside, and below the root all who are inside pass it.** An absolute path
that lies in an absolute scope means a location in that of the scope; and where neither leads up from
the root, every path does so that means such a location. Resolved names are such paths: they mean what
the name means as seen from the folder, and lead up from the root where the name does. -/
theorem contains_iff_leads_inside (hscope : scope.isAbsolute = true) :
    (∀ p : Path, p.isAbsolute = true →
      (scope.contains p = true → scope.destination <+: p.destination) ∧
      (scope.overshoot = 0 → p.overshoot = 0 →
        (scope.contains p = true ↔ scope.destination <+: p.destination))) ∧
    ∀ (base : Path) (name : String), base.isAbsolute = true →
      (Project.resolve base name).isAbsolute = true ∧
      (Project.resolve base name).destination = seenFrom base name ∧
      (Project.resolve base name).overshoot = (base.join ⟨Text.trim name⟩).overshoot ∧
      (scope.contains (Project.resolve base name) = true →
        scope.destination <+: seenFrom base name) := by
  refine ⟨fun p hp => ⟨destination_prefix_of_contains hscope hp, fun hlow hlow' => ?_⟩,
    fun base name hbase => ?_⟩
  · rw [contains_iff_of_absolute hscope hp, hlow, hlow']
    simp only [le_refl, and_true, true_and]
    exact ⟨fun h => h.elim (fun hnil => hnil ▸ List.nil_prefix) id, Or.inr⟩
  · have hjoin : (base.join ⟨Text.trim name⟩).isAbsolute = true := isAbsolute_join hbase
    have hresolve : (Project.resolve base name).isAbsolute = true := isAbsolute_normalize hjoin
    have hmeans := destination_resolve name hbase
    refine ⟨hresolve, hmeans, (destination_normalize hjoin).2, fun h => ?_⟩
    rw [← hmeans]
    exact destination_prefix_of_contains hscope hresolve h

/-- From `/proj/src` the name `./b//../../srcx/a` leads to a folder beside it, and is outside. -/
theorem contains_iff_leads_inside_sibling :
    (Path.mk "/proj/src").isAbsolute = true ∧
    (Path.mk "/proj/src").contains (Project.resolve ⟨"/proj/src"⟩ "./b//../../srcx/a") = false ∧
    (Path.mk "/proj/src").contains ⟨"/proj/./src//b/../a"⟩ = true := by
  have absolute : (Path.mk "/proj/src").isAbsolute = true := by decide +kernel
  obtain ⟨paths, names⟩ := contains_iff_leads_inside absolute
  obtain ⟨-, -, -, sound⟩ := names ⟨"/proj/src"⟩ "./b//../../srcx/a" absolute
  refine ⟨absolute, ?_, ?_⟩
  · -- it means a location that does not start with that of the scope
    have outside : ¬ (Path.mk "/proj/src").destination <+:
        seenFrom ⟨"/proj/src"⟩ "./b//../../srcx/a" := by decide +kernel
    exact Bool.eq_false_iff.mpr (mt sound outside)
  · have hp : (Path.mk "/proj/./src//b/../a").isAbsolute = true := by decide +kernel
    exact ((paths _ hp).2 (by decide +kernel) (by decide +kernel)).mpr (by decide +kernel)

end Path

end Arbor
