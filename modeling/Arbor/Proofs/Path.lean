import Arbor.FileSystem
import Mathlib.Data.List.Basic

/-! # The path of a location

A location is a list of names; `FileSystem.pathOf` writes it as an absolute path. On such paths
everything that is decided on the written form comes down to the list: components, normal form,
parent, file name and containment.

* `components_pathOf`: the components of a written location, also one with dots in it.
* `joinName_pathOf`: a name behind a written location is the written longer location.
* `normalize_concat`: a text without slashes, seen from a folder, leads to the folder itself, to its
  parent, or to one of its entries.
* `contains_pathOf`: containment of written locations is the prefix relation. -/

namespace Arbor

open Arbor.Path FileSystem

/-- The text names an entry of a folder: it has no slash in it and does not lead elsewhere. -/
def IsName (n : String) : Prop := '/' ∉ n.toList ∧ n ≠ "" ∧ n ≠ "." ∧ n ≠ ".."

instance (n : String) : Decidable (IsName n) := inferInstanceAs (Decidable (_ ∧ _))

/-- All steps of the location are names. -/
def Location.Named (loc : Location) : Prop := ∀ n ∈ loc, IsName n

instance (loc : Location) : Decidable loc.Named := List.decidableBAll _ loc

namespace Location.Named

theorem nil : Location.Named [] := fun _ h => by cases h

theorem append {a b : Location} (ha : Location.Named a) (hb : Location.Named b) :
    Location.Named (a ++ b) := by
  intro n hn
  rcases List.mem_append.mp hn with h | h
  · exact ha n h
  · exact hb n h

theorem concat {loc : Location} {n : String} (h : loc.Named) (hn : IsName n) :
    Location.Named (loc ++ [n]) :=
  h.append fun m hm => by rwa [List.mem_singleton.mp hm]

theorem left {a b : Location} (h : Location.Named (a ++ b)) : Location.Named a :=
  fun n hn => h n (List.mem_append_left b hn)

theorem last {loc : Location} {n : String} (h : Location.Named (loc ++ [n])) : IsName n :=
  h n (by simp)

theorem slashless {loc : Location} (h : loc.Named) : ∀ n ∈ loc, '/' ∉ n.toList :=
  fun n hn => (h n hn).1

end Location.Named

/-- An entry of a folder is neither the folder nor above it. -/
theorem Location.not_concat_prefix {up loc : Location} {n : String} (h : up <+: loc) :
    ¬ loc ++ [n] <+: up := by
  intro hentry
  have hlen := (hentry.trans h).length_le
  rw [List.length_append, List.length_singleton] at hlen
  exact Nat.not_succ_le_self _ hlen

namespace Path

/-! ### Components -/

theorem isAbsolute_of_slashless {t : String} (h : '/' ∉ t.toList) : (Path.mk t).isAbsolute = false := by
  simp only [isAbsolute, beq_eq_false_iff_ne]
  exact fun hhead => h (List.mem_of_head? hhead)

theorem isAbsolute_pathOf (loc : Location) : (pathOf loc).isAbsolute = true := by
  simp [isAbsolute, pathOf]

/-- Written with a slash in front, a list of texts without slashes comes apart into its texts. -/
theorem pieces_slash (ps : List String) (h : ∀ p ∈ ps, '/' ∉ p.toList) (hne : ps ≠ []) :
    (Path.mk ("/" ++ String.intercalate "/" ps)).pieces = "" :: ps := by
  have ht : ("/" ++ String.intercalate "/" ps).toList =
      List.intercalate ['/'] (("" :: ps).map String.toList) := by
    rw [show ['/'] = "/".toList from rfl, ← String.toList_intercalate,
      String.intercalate_cons_of_ne_nil hne, String.empty_append]
  unfold pieces
  rw [ht, List.splitOn_intercalate '/' (by simpa using h) (by simp)]
  simp

theorem pieces_pathOf {loc : Location} (h : ∀ n ∈ loc, '/' ∉ n.toList) (hne : loc ≠ []) :
    (pathOf loc).pieces = "" :: loc := pieces_slash loc h hne

theorem pieces_pathOf_nil : (pathOf []).pieces = ["", ""] := by
  have h := pieces_slash [""] (by simp) (by simp)
  simpa [pathOf] using h

/-- **The components of a written location.** -/
theorem components_pathOf {loc : Location} (h : ∀ n ∈ loc, '/' ∉ n.toList) :
    (pathOf loc).components = .root :: loc.filterMap innerComponent? := by
  unfold components
  cases loc with
  | nil =>
    rw [pieces_pathOf_nil]
    simp [isAbsolute_pathOf, innerComponent?]
  | cons n loc =>
    rw [pieces_pathOf h (by simp)]
    simp [isAbsolute_pathOf]

theorem innerComponent?_name {n : String} (h : IsName n) : innerComponent? n = some (.name n) := by
  simp [innerComponent?, h.2.1, h.2.2.1, h.2.2.2]

theorem filterMap_innerComponent? {loc : Location} (h : loc.Named) :
    loc.filterMap innerComponent? = loc.map Component.name := by
  induction loc with
  | nil => rfl
  | cons n loc ih =>
    rw [List.filterMap_cons, innerComponent?_name (h n (by simp)),
      ih fun m hm => h m (by simp [hm])]
    rfl

theorem components_of_named {loc : Location} (h : loc.Named) :
    (pathOf loc).components = .root :: loc.map Component.name := by
  rw [components_pathOf h.slashless, filterMap_innerComponent? h]

theorem map_name_injective {a b : List String} (h : a.map Component.name = b.map Component.name) :
    a = b :=
  List.map_injective_iff.mpr (fun _ _ h => Component.name.inj h) h

theorem same_pathOf {a b : Location} (ha : a.Named) (hb : b.Named) :
    (pathOf a).same (pathOf b) = true ↔ a = b := by
  simp only [same, components_of_named ha, components_of_named hb, decide_eq_true_eq,
    List.cons.injEq, true_and]
  exact ⟨map_name_injective, fun h => by rw [h]⟩

/-- Locations that are written alike are the same. -/
theorem pathOf_inj {a b : Location} (ha : a.Named) (hb : b.Named) :
    pathOf a = pathOf b ↔ a = b := by
  refine ⟨fun h => (same_pathOf ha hb).mp ?_, congrArg pathOf⟩
  rw [h, same, decide_eq_true_eq]

/-- The steps of a written location are its names. -/
theorem steps_pathOf {loc : Location} (h : loc.Named) : (pathOf loc).steps = loc := by
  unfold steps
  cases loc with
  | nil => rw [pieces_pathOf_nil]; rfl
  | cons n loc =>
    rw [pieces_pathOf h.slashless (by simp)]
    have hne : ∀ m ∈ n :: loc, (!m.isEmpty) = true := by
      intro m hm
      simpa using (h m hm).2.1
    rw [List.filter_cons_of_neg (by simp), List.filter_eq_self.mpr hne]

theorem fileName?_pathOf {loc : Location} {n : String} (h : Location.Named (loc ++ [n])) :
    (pathOf (loc ++ [n])).fileName? = some n := by
  rw [fileName?, components_of_named h, List.map_append, List.map_singleton, ← List.cons_append,
    List.getLast?_concat]

theorem parent?_pathOf {loc : Location} {n : String} (h : Location.Named (loc ++ [n])) :
    (pathOf (loc ++ [n])).parent? = some (pathOf loc) := by
  have hp : dropSilent ((dropSilent (pathOf (loc ++ [n])).pieces.reverse).drop 1) =
      dropSilent (loc.reverse ++ [""]) := by
    rw [pieces_pathOf h.slashless (by simp)]
    simp [dropSilent, h.last.2.1, h.last.2.2.1]
  unfold parent?
  rw [components_of_named h, hp, isAbsolute_pathOf, List.map_append, List.map_singleton,
    ← List.cons_append, List.getLast?_concat]
  cases List.eq_nil_or_concat' loc with
  | inl hnil =>
    subst hnil
    simp [dropSilent, pathOf]
  | inr hc =>
    obtain ⟨init, m, rfl⟩ := hc
    have hm : IsName m := h m (by simp)
    have hd : dropSilent ((init ++ [m]).reverse ++ [""]) = (init ++ [m]).reverse ++ [""] := by
      simp [dropSilent, hm.2.1, hm.2.2.1]
    rw [hd]
    have ht : String.intercalate "/" ((init ++ [m]).reverse ++ [""]).reverse =
        "/" ++ String.intercalate "/" (init ++ [m]) := by
      rw [List.reverse_append, List.reverse_reverse]
      exact (String.intercalate_cons_of_ne_nil (by simp)).trans (by simp)
    simp only [ht]
    simp [pathOf]

/-! ### Normal forms -/

theorem foldl_pushComponent_names (names : List String) (stack : List Component) :
    (names.map Component.name).foldl pushComponent stack =
      (names.map Component.name).reverse ++ stack := by
  induction names generalizing stack with
  | nil => rfl
  | cons n names ih => simp [pushComponent, ih]

theorem normalComponents_pathOf {loc : Location} (h : loc.Named) :
    (pathOf loc).normalComponents = .root :: loc.map Component.name := by
  simp [normalComponents, components_of_named h, pushComponent, foldl_pushComponent_names]

theorem ofComponents_names (loc : Location) :
    ofComponents (.root :: loc.map Component.name) = pathOf loc := by
  have h : (Component.text ∘ Component.name) = id := rfl
  simp [ofComponents, pathOf, h]

theorem normalize_pathOf {loc : Location} (h : loc.Named) : (pathOf loc).normalize = pathOf loc := by
  rw [normalize, normalComponents_pathOf h, ofComponents_names]

theorem map_name_prefix_iff {names names' : List String} :
    names.map Component.name <+: names'.map Component.name ↔ names <+: names' := by
  refine ⟨fun h => ?_, fun h => h.map Component.name⟩
  obtain ⟨front, hfront, heq⟩ := List.prefix_map_iff.mp h
  rwa [map_name_injective heq]

/-- **Containment of written locations.** -/
theorem contains_pathOf {a b : Location} (ha : a.Named) (hb : b.Named) :
    (pathOf a).contains (pathOf b) = true ↔ a <+: b := by
  rw [contains, normalComponents_pathOf ha, normalComponents_pathOf hb, List.isPrefixOf_iff_prefix,
    List.cons_prefix_cons, map_name_prefix_iff]
  exact and_iff_right rfl

/-! ### Names behind a location -/

/-- A path that ends in a step does not end in a slash. -/
theorem getLast?_pathOf_concat {init : List String} {n : String} (slashless : '/' ∉ n.toList)
    (nonempty : n ≠ "") : (pathOf (init ++ [n])).text.toList.getLast? ≠ some '/' := by
  have hn : n.toList ≠ [] := by simpa using nonempty
  have ht : ∃ front, (pathOf (init ++ [n])).text.toList = front ++ n.toList := by
    cases init with
    | nil => exact ⟨['/'], by simp [pathOf]⟩
    | cons m init =>
      refine ⟨("/" ++ String.intercalate "/" (m :: init) ++ "/").toList, ?_⟩
      rw [pathOf, String.intercalate_append_of_ne_nil (by simp) (by simp)]
      simp
  obtain ⟨front, ht⟩ := ht
  rw [ht, List.getLast?_append_of_ne_nil _ hn]
  intro hl
  exact slashless (List.mem_of_getLast? hl)

theorem getLast?_pathOf {loc : Location} (h : loc.Named) (hne : loc ≠ []) :
    (pathOf loc).text.toList.getLast? ≠ some '/' := by
  obtain ⟨init, n, rfl⟩ := (List.eq_nil_or_concat' loc).resolve_left hne
  exact getLast?_pathOf_concat h.last.1 h.last.2.1

/-- A text without slashes behind a path makes its list of steps longer, whatever the steps are. -/
theorem joinName_pathOf_of_slashless {steps : List String} {t : String}
    (h : ∀ n ∈ steps, '/' ∉ n.toList ∧ n ≠ "") (ht : '/' ∉ t.toList) :
    (pathOf steps).joinName t = pathOf (steps ++ [t]) := by
  unfold joinName join
  rw [isAbsolute_of_slashless ht]
  rcases List.eq_nil_or_concat' steps with rfl | ⟨init, n, rfl⟩
  · simp [pathOf]
  · obtain ⟨slashless, nonempty⟩ := h n (by simp)
    have hlast : (pathOf (init ++ [n])).text.toList.getLast? ≠ some '/' :=
      getLast?_pathOf_concat slashless nonempty
    have hne : init ++ [n] ≠ [] := by simp
    rw [if_neg (by simp), if_neg (by simpa [pathOf] using hlast), pathOf, pathOf,
      String.intercalate_append_of_ne_nil hne (by simp)]
    simp only [String.intercalate_singleton, String.append_assoc]

/-- **A text without slashes behind a location** makes the location longer. -/
theorem joinName_pathOf {loc : Location} {t : String} (h : loc.Named) (ht : '/' ∉ t.toList) :
    (pathOf loc).joinName t = pathOf (loc ++ [t]) :=
  joinName_pathOf_of_slashless (fun n hn => ⟨(h n hn).1, (h n hn).2.1⟩) ht

/-- Where a text without slashes leads from a folder: to the folder itself, to its parent, or to one
of its entries. From the root of the file system the way up stays written. -/
theorem normalize_concat {loc : Location} {t : String} (h : loc.Named) (ht : '/' ∉ t.toList) :
    ((t = "" ∨ t = ".") ∧ (pathOf (loc ++ [t])).normalize = pathOf loc) ∨
    (t = ".." ∧ loc ≠ [] ∧ (pathOf (loc ++ [t])).normalize = pathOf loc.dropLast) ∨
    (t = ".." ∧ loc = [] ∧ (pathOf (loc ++ [t])).normalize = pathOf [".."]) ∨
    (IsName t ∧ (pathOf (loc ++ [t])).normalize = pathOf (loc ++ [t])) := by
  have hs : ∀ n ∈ loc ++ [t], '/' ∉ n.toList := by
    intro n hn
    rcases List.mem_append.mp hn with hm | hm
    · exact (h n hm).1
    · rwa [List.mem_singleton.mp hm]
  have hc : (pathOf (loc ++ [t])).normalComponents =
      ((innerComponent? t).toList.foldl pushComponent
        ((loc.map Component.name).reverse ++ [.root])).reverse := by
    rw [normalComponents, components_pathOf hs, List.filterMap_append, filterMap_innerComponent? h]
    simp only [List.foldl_cons, List.foldl_append, pushComponent, foldl_pushComponent_names]
    cases hi : innerComponent? t <;> simp [hi]
  by_cases hsilent : t = "" ∨ t = "."
  · refine Or.inl ⟨hsilent, ?_⟩
    have hi : innerComponent? t = none := by
      rcases hsilent with rfl | rfl <;> decide
    rw [normalize, hc, hi]
    simpa using ofComponents_names loc
  by_cases hup : t = ".."
  · subst hup
    have hi : innerComponent? ".." = some .up := by decide
    cases List.eq_nil_or_concat' loc with
    | inl hnil =>
      subst hnil
      refine Or.inr (Or.inr (Or.inl ⟨rfl, rfl, ?_⟩))
      rw [normalize, hc, hi]
      rfl
    | inr hlast =>
      obtain ⟨init, m, rfl⟩ := hlast
      refine Or.inr (Or.inl ⟨rfl, by simp, ?_⟩)
      rw [normalize, hc, hi, List.dropLast_concat]
      simpa [pushComponent] using ofComponents_names init
  · rw [not_or] at hsilent
    have hn : IsName t := ⟨ht, hsilent.1, hsilent.2, hup⟩
    exact Or.inr (Or.inr (Or.inr ⟨hn, normalize_pathOf (h.concat hn)⟩))

end Path

end Arbor
