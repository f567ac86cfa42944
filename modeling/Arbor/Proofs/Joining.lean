import Arbor.Proofs.Project

/-! # A name behind any path

A path need not be that of a location: it may be relative, it may climb, and it may be written with
dots and repeated slashes. Its normal form still is a climb followed by names, and a name behind it is
one more step.

* `steps_join`: a relative path behind another goes on from where the other leads.
* `normalComponents_eq_form`: every normal form is a climb and a list of names.
* `resolve_cases`: what a text without slashes means in the folder of any path. -/

namespace Arbor

open FileSystem

namespace Path

variable {p q : Path} {t : String} {rooted : Bool} {ups : Nat} {names : List String}

/-! ### Steps -/

theorem pieces_of_slashless (h : '/' ∉ t.toList) : (Path.mk t).pieces = [t] := by
  simp [pieces, List.splitOn_eq_singleton h]

/-- A slash ends a piece. -/
theorem pieces_slashed (front back : String) :
    (Path.mk (front ++ "/" ++ back)).pieces = (Path.mk front).pieces ++ (Path.mk back).pieces := by
  have hsplit : (front ++ "/" ++ back).toList = front.toList ++ '/' :: back.toList := by simp
  unfold pieces
  rw [hsplit, List.splitOn_append_cons_self, List.map_append]

theorem pieces_trailing (front : String) :
    (Path.mk (front ++ "/")).pieces = (Path.mk front).pieces ++ [""] := by
  rw [show front ++ "/" = front ++ "/" ++ "" from String.append_empty.symm, pieces_slashed]
  rfl

theorem exists_pieces (p : Path) : ∃ first rest, p.pieces = first :: rest :=
  List.exists_cons_of_ne_nil (by simp [pieces, List.splitOn_ne_nil])

theorem steps_slashed (front back : String) :
    (Path.mk (front ++ "/" ++ back)).steps = (Path.mk front).steps ++ (Path.mk back).steps := by
  rw [steps, pieces_slashed, List.filter_append]
  rfl

theorem steps_empty : (Path.mk "").steps = [] := rfl

/-- A relative path stands alone behind nothing, and else behind a slash. -/
theorem join_cases (rel : q.isAbsolute = false) :
    (p.text = "" ∧ p.join q = q) ∨
    ∃ front, (p.text = front ∧ front ≠ "" ∨ p.text = front ++ "/") ∧
      p.join q = ⟨front ++ "/" ++ q.text⟩ := by
  unfold join
  rw [if_neg (by simp [rel])]
  by_cases hempty : p.text = ""
  · refine Or.inl ⟨hempty, ?_⟩
    rw [if_pos (by simp [hempty]), hempty, String.empty_append]
  refine Or.inr ?_
  by_cases hlast : p.text.toList.getLast? = some '/'
  · obtain ⟨front, hfront⟩ := List.getLast?_eq_some_iff.mp hlast
    have htext : p.text = String.ofList front ++ "/" := String.toList_injective (by simp [hfront])
    exact ⟨String.ofList front, Or.inr htext, by rw [if_pos (by simp [hlast]), htext]⟩
  · exact ⟨p.text, Or.inl ⟨rfl, hempty⟩, by rw [if_neg (by simp [hempty, hlast])]⟩

/-- **A relative path behind another** goes on from where the other leads. -/
theorem steps_join (rel : q.isAbsolute = false) : (p.join q).steps = p.steps ++ q.steps := by
  have hsteps : p.steps = (Path.mk p.text).steps := rfl
  rcases join_cases (p := p) rel with ⟨hempty, hjoin⟩ | ⟨front, hfront, hjoin⟩
  · rw [hjoin, hsteps, hempty, steps_empty, List.nil_append]
  · rw [hjoin, steps_slashed, hsteps]
    rcases hfront with ⟨htext, -⟩ | htext
    · rw [htext]
    · have hslash : front ++ "/" = front ++ "/" ++ "" := String.append_empty.symm
      rw [htext, hslash, steps_slashed, steps_empty, List.append_nil]

/-- A relative path behind another is absolute where the other is. -/
theorem join_isAbsolute (rel : q.isAbsolute = false) : (p.join q).isAbsolute = p.isAbsolute := by
  unfold isAbsolute at rel ⊢
  rcases join_cases (p := p) rel with ⟨hempty, hjoin⟩ | ⟨front, ⟨hfront, hne⟩ | hfront, hjoin⟩
  · rw [hjoin, rel, hempty]
    rfl
  · obtain ⟨c, cs, hcs⟩ := List.exists_cons_of_ne_nil (show front.toList ≠ [] by simpa using hne)
    rw [hjoin, hfront]
    simp [hcs]
  · rw [hjoin, hfront]
    cases hcs : front.toList <;> simp [hcs]

/-- What stands in the text of a joined path stands in one of its parts, or is a slash. -/
theorem mem_text_joinName (p : Path) (h : '/' ∉ t.toList) {c : Char}
    (hc : c ∈ (p.joinName t).text.toList) : c ∈ p.text.toList ∨ c = '/' ∨ c ∈ t.toList := by
  rcases join_cases (p := p) (isAbsolute_of_slashless h) with ⟨-, hjoin⟩ | ⟨front, hfront, hjoin⟩
  · rw [joinName, hjoin] at hc
    exact Or.inr (Or.inr hc)
  · rw [joinName, hjoin] at hc
    simp only [String.toList_append, List.append_assoc, List.mem_append] at hc
    rcases hc with hc | hc | hc
    · refine Or.inl ?_
      rcases hfront with ⟨htext, -⟩ | htext
      · rwa [htext]
      · rw [htext, String.toList_append]
        exact List.mem_append_left _ hc
    · exact Or.inr (Or.inl (by simpa using hc))
    · exact Or.inr (Or.inr hc)

/-! ### Components -/

/-- The pieces behind a slash are no first ones. -/
theorem components_slashed (front back : String) :
    (Path.mk (front ++ "/" ++ back)).components =
      (Path.mk (front ++ "/")).components ++ (Path.mk back).pieces.filterMap innerComponent? := by
  obtain ⟨first, rest, hfirst⟩ := exists_pieces ⟨front⟩
  have habs : (Path.mk (front ++ "/" ++ back)).isAbsolute = (Path.mk (front ++ "/")).isAbsolute := by
    simp only [isAbsolute, String.toList_append, List.append_assoc]
    cases front.toList <;> rfl
  unfold components
  rw [pieces_slashed, hfirst, habs, pieces_trailing, hfirst]
  have hsilent : innerComponent? "" = none := by simp [innerComponent?]
  cases (Path.mk (front ++ "/")).isAbsolute <;> simp [hsilent]

theorem components_trailing {front : String} (h : front ≠ "") :
    (Path.mk (front ++ "/")).components = (Path.mk front).components := by
  obtain ⟨first, rest, hfirst⟩ := exists_pieces ⟨front⟩
  have habs : (Path.mk (front ++ "/")).isAbsolute = (Path.mk front).isAbsolute := by
    have hne : front.toList ≠ [] := by simpa using h
    obtain ⟨c, cs, hcs⟩ := List.exists_cons_of_ne_nil hne
    simp [isAbsolute, hcs]
  unfold components
  rw [pieces_trailing, hfirst, habs]
  have hsilent : innerComponent? "" = none := by simp [innerComponent?]
  cases (Path.mk front).isAbsolute <;> simp [hsilent]

/-- **A text without slashes behind a path** is at most one component more. -/
theorem normalComponents_joinName (p : Path) (h : '/' ∉ t.toList) :
    (p.joinName t).normalComponents =
      ((innerComponent? t).toList.foldl pushComponent p.normalComponents.reverse).reverse := by
  have hone : (Path.mk t).pieces.filterMap innerComponent? = (innerComponent? t).toList := by
    rw [pieces_of_slashless h]
    cases hi : innerComponent? t <;> simp [hi]
  rcases join_cases (p := p) (isAbsolute_of_slashless h) with ⟨hempty, hjoin⟩ | ⟨front, hfront, hjoin⟩
  · have hp : p.normalComponents = [] := by
      rw [show p = ⟨""⟩ from congrArg Path.mk hempty]
      decide
    rw [joinName, hjoin, hp, normalComponents, components, pieces_of_slashless h]
    simp only [isAbsolute_of_slashless h]
    by_cases hdot : t = "."
    · subst hdot
      decide
    · simp [firstComponent?, hdot]
  · have hcomponents : (Path.mk (front ++ "/")).components = p.components := by
      rcases hfront with ⟨htext, hne⟩ | htext
      · rw [components_trailing hne, ← htext]
      · rw [← htext]
    rw [joinName, hjoin, normalComponents, components_slashed, hcomponents, hone, List.foldl_append,
      normalComponents, List.reverse_reverse]

/-! ### Normal forms -/

/-- The components of a climb, from the root or not, that is followed by names. -/
def form (rooted : Bool) (ups : Nat) (names : List String) : List Component :=
  (if rooted then [.root] else []) ++ List.replicate ups .up ++ names.map .name

theorem form_concat (rooted : Bool) (ups : Nat) (names : List String) (n : String) :
    form rooted ups (names ++ [n]) = form rooted ups names ++ [.name n] := by
  simp [form]

/-- Where no name is left, the climb goes on. -/
theorem pushComponent_up (rooted : Bool) (ups : Nat) :
    pushComponent (form rooted ups []).reverse .up = (form rooted (ups + 1) []).reverse := by
  have hstack : (form rooted ups []).reverse =
      List.replicate ups .up ++ (if rooted then [.root] else []) := by
    cases rooted <;> simp [form]
  have hnext : (form rooted (ups + 1) []).reverse = .up :: (form rooted ups []).reverse := by
    rw [hstack]
    cases rooted <;> simp [form, ← List.replicate_succ', List.replicate_succ]
  rw [hnext, hstack]
  cases ups <;> cases rooted <;> rfl

theorem foldl_pushComponent_up (rooted : Bool) (ups more : Nat) :
    (List.replicate more .up).foldl pushComponent (form rooted ups []).reverse =
      (form rooted (ups + more) []).reverse := by
  induction more generalizing ups with
  | zero => rfl
  | succ more ih =>
    rw [List.replicate_succ, List.foldl_cons, pushComponent_up, ih, Nat.add_right_comm]
    rfl

/-- One component more on a normal form makes a normal form. -/
theorem pushComponent_form (rooted : Bool) (ups : Nat) {c : Component}
    (hnames : Location.Named names) (hroot : c ≠ .root) (hname : ∀ n, c = .name n → IsName n) :
    ∃ ups' names', Location.Named names' ∧
      pushComponent (form rooted ups names).reverse c = (form rooted ups' names').reverse := by
  cases c with
  | root => exact absurd rfl hroot
  | here => exact ⟨ups, names, hnames, rfl⟩
  | name n => exact ⟨ups, names ++ [n], hnames.concat (hname n rfl), by simp [pushComponent, form]⟩
  | up =>
    rcases List.eq_nil_or_concat' names with rfl | ⟨front, n, rfl⟩
    · exact ⟨ups + 1, [], Location.Named.nil, pushComponent_up rooted ups⟩
    · exact ⟨ups, front, hnames.left, by rw [form_concat]; simp [pushComponent]⟩

theorem foldl_pushComponent_form (rooted : Bool) (ups : Nat) {cs : List Component}
    (hnames : Location.Named names) (hroot : .root ∉ cs) (hname : ∀ n, .name n ∈ cs → IsName n) :
    ∃ ups' names', Location.Named names' ∧
      cs.foldl pushComponent (form rooted ups names).reverse = (form rooted ups' names').reverse := by
  induction cs generalizing ups names with
  | nil => exact ⟨ups, names, hnames, rfl⟩
  | cons c cs ih =>
    obtain ⟨ups', names', hnames', hpush⟩ := pushComponent_form rooted ups hnames
      (fun h => hroot (h ▸ List.mem_cons_self)) (fun n h => hname n (h ▸ List.mem_cons_self))
    rw [List.foldl_cons, hpush]
    exact ih ups' hnames' (fun h => hroot (List.mem_cons_of_mem c h))
      (fun n h => hname n (List.mem_cons_of_mem c h))

/-- What a piece behind the first one can be. -/
theorem innerComponent?_cases {piece : String} {c : Component} (h : innerComponent? piece = some c) :
    c = .up ∨ (c = .name piece ∧ piece ≠ "" ∧ piece ≠ "." ∧ piece ≠ "..") := by
  unfold innerComponent? at h
  split at h
  · cases h
  next hsilent =>
  split at h
  · exact Or.inl (Option.some.inj h).symm
  next hup =>
  simp only [Bool.or_eq_true, decide_eq_true_eq, not_or] at hsilent
  exact Or.inr ⟨(Option.some.inj h).symm, hsilent.1, hsilent.2, hup⟩

/-- What stands in a piece of a list stands in the list. -/
theorem mem_of_mem_splitOn {c x : Char} {cs piece : List Char} (h : piece ∈ cs.splitOn c)
    (hx : x ∈ piece) : x ∈ cs := by
  induction cs generalizing piece with
  | nil =>
    rw [List.splitOn_nil, List.mem_singleton] at h
    rwa [h] at hx
  | cons y cs ih =>
    rw [List.splitOn_cons_eq_if_modifyHead] at h
    split at h
    · rcases List.mem_cons.mp h with rfl | h
      · cases hx
      · exact List.mem_cons_of_mem y (ih h hx)
    · obtain ⟨first, rest, hsplit⟩ := List.exists_cons_of_ne_nil (List.splitOn_ne_nil c cs)
      rw [hsplit] at h ih
      rcases List.mem_cons.mp h with rfl | h
      · rcases List.mem_cons.mp hx with rfl | hx
        · exact List.mem_cons_self
        · exact List.mem_cons_of_mem y (ih List.mem_cons_self hx)
      · exact List.mem_cons_of_mem y (ih (List.mem_cons_of_mem first h) hx)

theorem mem_text_of_mem_pieces {piece : String} (h : piece ∈ p.pieces) {c : Char}
    (hc : c ∈ piece.toList) : c ∈ p.text.toList := by
  obtain ⟨cs, hcs, rfl⟩ := List.mem_map.mp h
  rw [String.toList_ofList] at hc
  exact mem_of_mem_splitOn hcs hc

theorem slashless_of_mem_pieces {piece : String} (h : piece ∈ p.pieces) : '/' ∉ piece.toList := by
  obtain ⟨cs, hcs, rfl⟩ := List.mem_map.mp h
  rw [String.toList_ofList]
  exact not_mem_of_mem_splitOn hcs

/-- Behind the root of an absolute path there is none, and names are pieces. -/
theorem components_cases (p : Path) : ∃ cs : List Component,
    p.components = (if p.isAbsolute then [.root] else []) ++ cs ∧ .root ∉ cs ∧
      ∀ n, .name n ∈ cs → IsName n ∧ n ∈ p.pieces := by
  obtain ⟨first, rest, hpieces⟩ := exists_pieces p
  have hinner : ∀ piece ∈ p.pieces, ∀ c, innerComponent? piece = some c →
      c ≠ .root ∧ ∀ n, c = .name n → IsName n ∧ n ∈ p.pieces := by
    intro piece hpiece c hi
    rcases innerComponent?_cases hi with rfl | ⟨rfl, hname⟩
    · simp
    · simpa using ⟨⟨slashless_of_mem_pieces hpiece, hname⟩, hpiece⟩
  have hrest : ∀ c ∈ rest.filterMap innerComponent?,
      c ≠ .root ∧ ∀ n, c = .name n → IsName n ∧ n ∈ p.pieces := by
    intro c hc
    obtain ⟨piece, hpiece, hi⟩ := List.mem_filterMap.mp hc
    exact hinner piece (by simp [hpieces, hpiece]) c hi
  have hfirst : ∀ c ∈ (firstComponent? first).toList,
      c ≠ .root ∧ ∀ n, c = .name n → IsName n ∧ n ∈ p.pieces := by
    intro c hc
    have hi := Option.mem_toList.mp hc
    unfold firstComponent? at hi
    split at hi
    · obtain rfl := Option.some.inj hi
      simp
    · exact hinner first (by simp [hpieces]) c hi
  unfold components
  rw [hpieces]
  cases p.isAbsolute with
  | true =>
    exact ⟨rest.filterMap innerComponent?, by simp, fun h => (hrest _ h).1 rfl,
      fun n h => hpieces ▸ (hrest _ h).2 n rfl⟩
  | false =>
    have hall : ∀ c ∈ (firstComponent? first).toList ++ rest.filterMap innerComponent?,
        c ≠ .root ∧ ∀ n, c = .name n → IsName n ∧ n ∈ p.pieces := fun c hc =>
      (List.mem_append.mp hc).elim (hfirst c) (hrest c)
    exact ⟨_, by simp, fun h => (hall _ h).1 rfl, fun n h => hpieces ▸ (hall _ h).2 n rfl⟩

theorem name_mem_components {n : String} (h : .name n ∈ p.components) : IsName n ∧ n ∈ p.pieces := by
  obtain ⟨cs, hcs, -, hname⟩ := components_cases p
  refine hname n ?_
  rw [hcs] at h
  refine (List.mem_append.mp h).resolve_left fun hroot => ?_
  cases habs : p.isAbsolute <;> simp [habs] at hroot

/-- **Every normal form** is a climb and a list of names, from the root if the path is absolute. -/
theorem normalComponents_eq_form (p : Path) :
    ∃ ups names, Location.Named names ∧ p.normalComponents = form p.isAbsolute ups names := by
  obtain ⟨cs, hcs, hroot, hname⟩ := components_cases p
  obtain ⟨ups, names, hnames, hfold⟩ := foldl_pushComponent_form p.isAbsolute 0
    Location.Named.nil hroot fun n h => (hname n h).1
  refine ⟨ups, names, hnames, ?_⟩
  rw [normalComponents, hcs, List.foldl_append]
  have hstart : (if p.isAbsolute then [Component.root] else []).foldl pushComponent [] =
      (form p.isAbsolute 0 []).reverse := by cases p.isAbsolute <;> rfl
  rw [hstart, hfold, List.reverse_reverse]

/-- The steps of a climb that is followed by names. -/
def track (ups : Nat) (names : List String) : List String := List.replicate ups ".." ++ names

theorem mem_track {s : String} (hnames : Location.Named names) (h : s ∈ track ups names) :
    s = ".." ∨ IsName s := by
  rcases List.mem_append.mp h with h | h
  · exact Or.inl (List.mem_replicate.mp h).2
  · exact Or.inr (hnames s h)

/-- They are written as they are. -/
theorem visible_of_mem_track {s : String} (hnames : Location.Named names) (h : s ∈ track ups names) :
    '/' ∉ s.toList ∧ s ≠ "" ∧ s ≠ "." := by
  rcases mem_track hnames h with rfl | hname
  · decide
  · exact ⟨hname.1, hname.2.1, hname.2.2.1⟩

theorem filterMap_track (ups : Nat) (hnames : Location.Named names) :
    (track ups names).filterMap innerComponent? = form false ups names := by
  have hups : (List.replicate ups "..").filterMap innerComponent? = List.replicate ups .up := by
    induction ups with
    | zero => rfl
    | succ ups ih =>
      rw [List.replicate_succ, List.replicate_succ, List.filterMap_cons, ih]
      rfl
  rw [track, List.filterMap_append, filterMap_innerComponent? hnames, hups]
  rfl

/-- The text of a normal form. -/
theorem ofComponents_form (rooted : Bool) (ups : Nat) (names : List String) :
    ofComponents (form rooted ups names) =
      ⟨(if rooted then "/" else "") ++ String.intercalate "/" (track ups names)⟩ := by
  have htext : (form false ups names).map Component.text = track ups names := by
    have hid : Component.text ∘ Component.name = id := rfl
    simp [form, track, Component.text, hid]
  cases rooted with
  | true =>
    change Path.mk ("/" ++ String.intercalate "/" ((form false ups names).map Component.text)) = _
    rw [htext]
    rfl
  | false =>
    have hroot : ofComponents (form false ups names) =
        ⟨String.intercalate "/" ((form false ups names).map Component.text)⟩ := by
      unfold ofComponents
      split
      · next rest heq =>
        have hmem : Component.root ∈ form false ups names := by rw [heq]; exact List.mem_cons_self
        simp [form] at hmem
      · rfl
    rw [hroot, htext]
    exact congrArg Path.mk String.empty_append.symm

/-- The pieces of a normal form that leads somewhere. -/
theorem pieces_form (hnames : Location.Named names) (hne : track ups names ≠ []) :
    (ofComponents (form rooted ups names)).pieces =
      (if rooted then [""] else []) ++ track ups names := by
  have hslash : ∀ s ∈ track ups names, '/' ∉ s.toList := fun s hs => (visible_of_mem_track hnames hs).1
  have hpieces : (Path.mk (String.intercalate "/" (track ups names))).pieces = track ups names := by
    unfold pieces
    rw [String.toList_intercalate, show "/".toList = ['/'] from rfl, List.splitOn_intercalate '/'
      (fun cs hcs => by obtain ⟨s, hs, rfl⟩ := List.mem_map.mp hcs; exact hslash s hs)
      (by simpa using hne)]
    simp
  rw [ofComponents_form]
  cases rooted with
  | false => simpa using hpieces
  | true => exact pieces_slash _ hslash hne

/-- **The steps of a normal form.** -/
theorem steps_form (hnames : Location.Named names) :
    (ofComponents (form rooted ups names)).steps = track ups names := by
  by_cases hne : track ups names = []
  · rw [ofComponents_form, hne]
    cases rooted <;> rfl
  · have hfull : ∀ s ∈ track ups names, (!s.isEmpty) = true := fun s hs => by
      simpa using (visible_of_mem_track hnames hs).2.1
    rw [steps, pieces_form hnames hne, List.filter_append, List.filter_eq_self.mpr hfull]
    cases rooted <;> rfl

theorem isAbsolute_form (hnames : Location.Named names) :
    (ofComponents (form rooted ups names)).isAbsolute = rooted := by
  rw [ofComponents_form]
  cases rooted with
  | true => simp [isAbsolute]
  | false =>
    cases htrack : track ups names with
    | nil => decide
    | cons s rest =>
      obtain ⟨hslash, hne, -⟩ := visible_of_mem_track hnames
        (show s ∈ track ups names by rw [htrack]; exact List.mem_cons_self)
      obtain ⟨c, cs, hcs⟩ := List.exists_cons_of_ne_nil (show s.toList ≠ [] by simpa using hne)
      have hc : c ≠ '/' := fun h => hslash (by rw [hcs, h]; exact List.mem_cons_self)
      have hhead : ∃ more, String.intercalate "/" (s :: rest) = s ++ more := by
        cases rest with
        | nil => exact ⟨"", by simp⟩
        | cons s' rest => exact ⟨"/" ++ String.intercalate "/" (s' :: rest), by
            rw [String.intercalate_cons_of_ne_nil (by simp), String.append_assoc]⟩
      obtain ⟨more, hmore⟩ := hhead
      rw [hmore]
      simp [isAbsolute, hcs, hc]

/-- A normal form is absolute where the path is. -/
theorem normalize_isAbsolute (p : Path) : p.normalize.isAbsolute = p.isAbsolute := by
  obtain ⟨ups, names, hnames, hform⟩ := normalComponents_eq_form p
  rw [normalize, hform, isAbsolute_form hnames]

/-- **The components of a normal form** are those that it is made of. -/
theorem components_form (hnames : Location.Named names) :
    (ofComponents (form rooted ups names)).components = form rooted ups names := by
  by_cases hne : track ups names = []
  · obtain ⟨hups, rfl⟩ := List.append_eq_nil_iff.mp hne
    obtain rfl : ups = 0 := by simpa using hups
    cases rooted <;> decide
  · unfold components
    rw [pieces_form hnames hne, isAbsolute_form hnames]
    have hall := filterMap_track ups hnames
    cases rooted with
    | true =>
      rw [← List.singleton_append, if_pos rfl]
      simp only [List.singleton_append, if_true]
      rw [hall]
      rfl
    | false =>
      obtain ⟨s, rest, htrack⟩ := List.exists_cons_of_ne_nil hne
      have hdot : s ≠ "." := (visible_of_mem_track hnames
        (show s ∈ track ups names by rw [htrack]; exact List.mem_cons_self)).2.2
      rw [← hall, htrack]
      simp only [List.nil_append, Bool.false_eq_true, if_false, firstComponent?, if_neg hdot,
        List.filterMap_cons]
      cases innerComponent? s <;> rfl

/-- A normal form is its own. -/
theorem normalComponents_form (hnames : Location.Named names) :
    (ofComponents (form rooted ups names)).normalComponents = form rooted ups names := by
  have hstart : (if rooted then [Component.root] else []).foldl pushComponent [] =
      (form rooted 0 []).reverse := by cases rooted <;> rfl
  rw [normalComponents, components_form hnames]
  conv_lhs => rw [form]
  rw [List.foldl_append, List.foldl_append, hstart, foldl_pushComponent_up, Nat.zero_add,
    foldl_pushComponent_names, List.reverse_append, List.reverse_reverse, List.reverse_reverse]
  simp [form]

/-! ### Entries of a folder -/

/-- The path leads up only. -/
def Climbs (p : Path) : Prop := ∀ n ∈ p.steps, n = ".."

/-- **The path is that of an entry** of the folder that another path leads to. -/
structure IsEntry (dir p : Path) (e : String) : Prop where
  isName : IsName e
  steps : p.steps = dir.steps ++ [e]
  fileName : p.fileName? = some e
  plain : p.asksFolder = false

/-- A name behind a path does not end in a slash. -/
theorem asksFolder_joinName (p : Path) (h : IsName t) : (p.joinName t).asksFolder = false := by
  have hne : t.toList ≠ [] := by simpa using h.2.1
  have hlast : ∃ front, (p.joinName t).text.toList = front ++ t.toList := by
    rcases join_cases (p := p) (isAbsolute_of_slashless h.1) with ⟨-, hjoin⟩ | ⟨front, -, hjoin⟩
    · exact ⟨[], by rw [joinName, hjoin]; rfl⟩
    · exact ⟨front.toList ++ ['/'], by rw [joinName, hjoin]; simp⟩
  obtain ⟨front, hfront⟩ := hlast
  rw [asksFolder, hfront, List.getLast?_append_of_ne_nil _ hne]
  simpa using fun hl => h.1 (List.mem_of_getLast? hl)

/-- A name behind a path is one step more. -/
theorem steps_joinName (p : Path) (h : IsName t) : (p.joinName t).steps = p.steps ++ [t] := by
  have hone : (Path.mk t).steps = [t] := by simp [steps, pieces_of_slashless h.1, h.2.1]
  rw [joinName, steps_join (isAbsolute_of_slashless h.1), hone]

theorem isEntry_form {e : String} (hnames : Location.Named names) (he : IsName e) :
    IsEntry (ofComponents (form rooted ups names)) (ofComponents (form rooted ups (names ++ [e]))) e where
  isName := he
  steps := by rw [steps_form (hnames.concat he), steps_form hnames, track, track, List.append_assoc]
  fileName := by
    rw [fileName?, components_form (hnames.concat he), form_concat, List.getLast?_concat]
  plain := by
    have hlast : ∃ front, (ofComponents (form rooted ups (names ++ [e]))).text.toList =
        front ++ e.toList := by
      rw [ofComponents_form, track, ← List.append_assoc]
      cases htrack : List.replicate ups ".." ++ names with
      | nil => exact ⟨(if rooted then "/" else "").toList, by simp⟩
      | cons s rest =>
        rw [String.intercalate_append_of_ne_nil (by simp) (by simp)]
        exact ⟨((if rooted then "/" else "") ++ String.intercalate "/" (s :: rest) ++ "/").toList,
          by simp⟩
    obtain ⟨front, hfront⟩ := hlast
    have hne : e.toList ≠ [] := by simpa using he.2.1
    rw [asksFolder, hfront, List.getLast?_append_of_ne_nil _ hne]
    simpa using fun hl => he.1 (List.mem_of_getLast? hl)

end Path

namespace Project

open Arbor.Path

/-- **What a text without slashes means in the folder of any path:** the folder itself, a place
above it, or one of its entries. The folder holds a place above it only where the way to it is a
climb. -/
theorem resolve_cases (dir : Path) {t : String} (ht : '/' ∉ t.toList) :
    ((Text.trim t = "" ∨ Text.trim t = ".") ∧ resolve dir t = dir.normalize) ∨
    (Text.trim t = ".." ∧
      (dir.contains (resolve dir t) = true → dir.normalize.Climbs ∧ (resolve dir t).Climbs)) ∨
    IsEntry dir.normalize (resolve dir t) (Text.trim t) := by
  have htrim := trim_slashless ht
  obtain ⟨ups, names, hnames, hdir⟩ := normalComponents_eq_form dir
  generalize dir.isAbsolute = rooted at hdir
  have hnormal : dir.normalize = ofComponents (form rooted ups names) := by rw [Path.normalize, hdir]
  have hresolve : resolve dir t = ofComponents ((innerComponent? (Text.trim t)).toList.foldl
      pushComponent (form rooted ups names).reverse).reverse := by
    change (dir.joinName (Text.trim t)).normalize = _
    rw [Path.normalize, normalComponents_joinName dir htrim, hdir]
  by_cases hsilent : Text.trim t = "" ∨ Text.trim t = "."
  · have hnone : innerComponent? (Text.trim t) = none := by
      rcases hsilent with h | h <;> rw [h] <;> decide
    refine Or.inl ⟨hsilent, ?_⟩
    rw [hresolve, hnone, hnormal]
    simp
  by_cases hup : Text.trim t = ".."
  · have hone : innerComponent? (Text.trim t) = some .up := by rw [hup]; decide
    refine Or.inr (Or.inl ⟨hup, fun hin => ?_⟩)
    rw [hone, Option.toList_some, List.foldl_cons, List.foldl_nil] at hresolve
    rcases List.eq_nil_or_concat' names with rfl | ⟨front, m, rfl⟩
    · have hclimbs : ∀ ups, (ofComponents (form rooted ups [])).Climbs := fun ups n hn => by
        rw [steps_form Location.Named.nil, track, List.append_nil] at hn
        exact (List.mem_replicate.mp hn).2
      rw [hnormal, hresolve, pushComponent_up, List.reverse_reverse]
      exact ⟨hclimbs ups, hclimbs (ups + 1)⟩
    · -- the folder above is no part of the folder
      have hpush : (pushComponent (form rooted ups (front ++ [m])).reverse .up).reverse =
          form rooted ups front := by
        rw [form_concat]
        simp [pushComponent]
      rw [contains, hresolve, hpush, normalComponents_form hnames.left, hdir,
        List.isPrefixOf_iff_prefix, form_concat] at hin
      have hlen := hin.length_le
      simp at hlen
  · rw [not_or] at hsilent
    have hname : IsName (Text.trim t) := ⟨htrim, hsilent.1, hsilent.2, hup⟩
    have hpush : (pushComponent (form rooted ups names).reverse (.name (Text.trim t))).reverse =
        form rooted ups (names ++ [Text.trim t]) := by
      rw [form_concat]
      simp [pushComponent]
    rw [innerComponent?_name hname, Option.toList_some, List.foldl_cons, List.foldl_nil, hpush]
      at hresolve
    rw [hresolve, hnormal]
    exact Or.inr (Or.inr (isEntry_form hnames hname))

end Project

end Arbor
