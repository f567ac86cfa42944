import Arbor.Proofs.ByteOrder

/-! # The listing of a folder is its pruned tree

A listing has one line for each entry that a walk meets which leaves out what agents do not see, goes
down as far as it is asked to, and cannot open a folder whose path is too long. What it shows is said
entry by entry, and the order is that of `Location.Before`.

* `Shown`: what is shown of a folder, said of the location alone.
* `mem_rowsBelow`, `rowsBelow_sorted`: the walk meets what is shown, in order.
* `listed_of_status`: the listing is the head, and a line for each entry that is shown. -/

namespace Arbor

open FileSystem

namespace Project

variable {project : Project} {site : Site} {base : Path} {loc rel : Location} {levels : Nat}
  {n : String}

/-! ### What is shown -/

/-- The path of a location below the folder at a path. -/
def below (base : Path) (rel : Location) : Path := rel.foldl Path.joinName base

/-- **The entry is shown** where the folder `loc`, at the path `base`, is listed: it stands at most
`levels` deep, agents see it and every folder on the way to it, and those can be opened. -/
structure Shown (site : Site) (levels : Nat) (base : Path) (loc rel : Location) : Prop where
  proper : rel ≠ []
  found : site.files.find? (loc ++ rel) ≠ none
  shallow : rel.length ≤ levels
  seen : ∀ part, part <+: rel → part ≠ [] → isSeen site (below base part) = true
  opened : ∀ part, part <+: rel → part ≠ [] → part ≠ rel →
    (below base part).text.utf8ByteSize ≤ maxPath

/-- What is shown is an entry of the folder, or it is shown of one that is opened. -/
theorem shown_cons (tree : site.files.IsTree) :
    Shown site (levels + 1) base loc (n :: rel) ↔
      ∃ entry, site.files.find? (loc ++ [n]) = some entry ∧ isSeen site (base.joinName n) = true ∧
        (rel = [] ∨ isEntered (base.joinName n) entry = true ∧
          Shown site levels (base.joinName n) (loc ++ [n]) rel) := by
  have hwhole : loc ++ n :: rel = loc ++ [n] ++ rel := by simp
  constructor
  · intro h
    have hseen : isSeen site (base.joinName n) = true := h.seen [n] (by simp) (by simp)
    by_cases hrel : rel = []
    · subst hrel
      obtain ⟨entry, hentry⟩ := Option.ne_none_iff_exists'.mp h.found
      exact ⟨entry, hentry, hseen, Or.inl rfl⟩
    · have hfound := h.found
      rw [hwhole] at hfound
      have hopened := h.opened [n] (by simp) (by simp) (by simpa using Ne.symm hrel)
      refine ⟨.folder, tree.below hfound hrel, hseen, Or.inr ⟨?_, hrel, hfound, ?_, ?_, ?_⟩⟩
      · simpa [isEntered, Entry.isFolder, below] using hopened
      · simpa using h.shallow
      · exact fun part hp _ => h.seen (n :: part) (List.cons_prefix_cons.mpr ⟨rfl, hp⟩) (by simp)
      · exact fun part hp _ hne => h.opened (n :: part) (List.cons_prefix_cons.mpr ⟨rfl, hp⟩)
          (by simp) (by simpa using hne)
  · rintro ⟨entry, hentry, hseen, hrest⟩
    constructor
    case proper => simp
    case found =>
      rcases hrest with rfl | ⟨-, hrest⟩
      · rw [hentry]
        simp
      · rw [hwhole]
        exact hrest.found
    case shallow =>
      rcases hrest with rfl | ⟨-, hrest⟩
      · simp
      · simpa using hrest.shallow
    case seen =>
      intro part hp hne
      obtain rfl | ⟨more, rfl, hmore⟩ := List.prefix_cons_iff.mp hp
      · exact absurd rfl hne
      by_cases hnil : more = []
      · rw [hnil]
        exact hseen
      rcases hrest with rfl | ⟨-, hrest⟩
      · exact absurd (List.prefix_nil.mp hmore) hnil
      · exact hrest.seen more hmore hnil
    case opened =>
      intro part hp hne hne'
      obtain rfl | ⟨more, rfl, hmore⟩ := List.prefix_cons_iff.mp hp
      · exact absurd rfl hne
      rcases hrest with rfl | ⟨hentered, hrest⟩
      · exact absurd (by rw [List.prefix_nil.mp hmore]) hne'
      by_cases hnil : more = []
      · rw [hnil]
        exact of_decide_eq_true (Bool.and_eq_true_iff.mp hentered).2
      · exact hrest.opened more hmore hnil fun he => hne' (by rw [he])

/-! ### What the walk meets -/

/-- What the walk meets for one entry, where `inner` is what it meets below. -/
def rowsOf (site : Site) (base : Path) (child : String × Entry) (inner : List Location) :
    List Location :=
  if isSeen site (base.joinName child.1) then
    [child.1] :: if isEntered (base.joinName child.1) child.2 then inner.map (child.1 :: ·) else []
  else []

/-- The locations of the entries that the walk meets. -/
def rowsBelow (site : Site) : Nat → Path → Location → List Location
  | 0, _, _ => []
  | levels + 1, base, loc => (site.files.children loc).flatMap fun child =>
    rowsOf site base child (rowsBelow site levels (base.joinName child.1) (loc ++ [child.1]))

variable {child : String × Entry} {inner : List Location}

theorem mem_rowsOf : rel ∈ rowsOf site base child inner ↔
    isSeen site (base.joinName child.1) = true ∧ ∃ more, rel = child.1 :: more ∧
      (more = [] ∨ isEntered (base.joinName child.1) child.2 = true ∧ more ∈ inner) := by
  unfold rowsOf
  cases isSeen site (base.joinName child.1) with
  | false => simp
  | true =>
    cases isEntered (base.joinName child.1) child.2 with
    | false => simp
    | true =>
      simp only [if_true, List.mem_cons, List.mem_map, true_and]
      constructor
      · rintro (rfl | ⟨more, hmore, rfl⟩)
        · exact ⟨[], rfl, Or.inl rfl⟩
        · exact ⟨more, rfl, Or.inr hmore⟩
      · rintro ⟨more, rfl, rfl | hmore⟩
        · exact Or.inl rfl
        · exact Or.inr ⟨more, hmore, rfl⟩

/-- **The walk meets what is shown.** -/
theorem mem_rowsBelow (sound : site.files.Sound) :
    rel ∈ rowsBelow site levels base loc ↔ Shown site levels base loc rel := by
  induction levels generalizing base loc rel with
  | zero =>
    constructor
    · intro h
      cases h
    · intro h
      exact absurd h.shallow (Nat.not_le.mpr (List.length_pos_iff.mpr h.proper))
  | succ levels ih =>
    simp only [rowsBelow, List.mem_flatMap, mem_rowsOf]
    constructor
    · rintro ⟨⟨n, entry⟩, hchild, hseen, more, rfl, hmore⟩
      refine (shown_cons sound.tree).mpr ⟨entry, sound.mem_children.mp hchild, hseen, ?_⟩
      exact hmore.imp id fun ⟨hentered, hmem⟩ => ⟨hentered, ih.mp hmem⟩
    · intro h
      obtain ⟨n, more, rfl⟩ := List.exists_cons_of_ne_nil h.proper
      obtain ⟨entry, hfind, hseen, hmore⟩ := (shown_cons sound.tree).mp h
      refine ⟨(n, entry), sound.mem_children.mpr hfind, hseen, more, rfl, ?_⟩
      exact hmore.imp id fun ⟨hentered, hshown⟩ => ⟨hentered, ih.mpr hshown⟩

/-- For one entry the walk meets it first, and then what is below. -/
theorem rowsOf_sorted (h : inner.Pairwise Location.Before) (proper : ∀ rel ∈ inner, rel ≠ []) :
    (rowsOf site base child inner).Pairwise Location.Before := by
  unfold rowsOf
  split
  · refine List.pairwise_cons.mpr ⟨fun rel hrel => ?_, ?_⟩
    · split at hrel
      · obtain ⟨more, hmore, rfl⟩ := List.mem_map.mp hrel
        exact Location.before_append (a := [child.1]) (proper more hmore)
      · cases hrel
    · split
      · refine List.pairwise_map.mpr (h.imp fun hbefore => ?_)
        exact Location.cons_before_cons.mpr (Or.inr ⟨rfl, hbefore⟩)
      · exact List.Pairwise.nil
  · exact List.Pairwise.nil

/-- **The walk goes in order.** -/
theorem rowsBelow_sorted (sound : site.files.Sound) (levels : Nat) (base : Path) (loc : Location) :
    (rowsBelow site levels base loc).Pairwise Location.Before := by
  induction levels generalizing base loc with
  | zero => exact List.Pairwise.nil
  | succ levels ih =>
    rw [rowsBelow, List.pairwise_flatMap]
    constructor
    · exact fun child _ => rowsOf_sorted (ih _ _) fun rel hrel => ((mem_rowsBelow sound).mp hrel).proper
    · refine (sorted_children sound loc).imp fun {child other} hlt rel hrel rel' hrel' => ?_
      obtain ⟨-, more, rfl, -⟩ := mem_rowsOf.mp hrel
      obtain ⟨-, more', rfl, -⟩ := mem_rowsOf.mp hrel'
      exact Location.cons_before_cons.mpr (Or.inl hlt)

/-! ### The lines -/

/-- **The line of an entry** below a folder that is itself `depth` levels deep: two spaces for each
level, the name, and a slash behind that of a folder. -/
def row (files : FileSystem) (depth : Nat) (loc rel : Location) : String :=
  String.join (List.replicate (depth + rel.length) "  ") ++ rel.getLast?.getD "" ++
    (if files.find? (loc ++ rel) matches some .folder then "/" else "") ++ "\n"

theorem row_cons {files : FileSystem} {depth : Nat} (h : rel ≠ []) :
    row files depth loc (n :: rel) = row files (depth + 1) (loc ++ [n]) rel := by
  have hlast : (n :: rel).getLast? = rel.getLast? := by
    rw [List.getLast?_cons, List.getLast?_eq_some_getLast h]
    simp
  rw [row, row, hlast, List.length_cons, List.append_assoc, List.singleton_append,
    Nat.add_right_comm, Nat.add_assoc]

/-- **What the walk meets is written down** line by line. -/
theorem map_line_seenBelow (sound : site.files.Sound) (levels depth : Nat) (base : Path)
    (loc : Location) : (seenBelow site levels (depth + 1) base loc).map Seen.line =
      (rowsBelow site levels base loc).map (row site.files depth loc) := by
  induction levels generalizing depth base loc with
  | zero => rfl
  | succ levels ih =>
    simp only [seenBelow, rowsBelow, rowsOf, List.map_flatMap]
    refine List.flatMap_congr fun child hchild => ?_
    have hline : Seen.line ⟨depth + 1, base.joinName child.1, child.1, child.2⟩ =
        row site.files depth loc [child.1] := by
      rw [Seen.line, row, sound.mem_children.mp hchild]
      cases child.2 <;> rfl
    cases hseen : isSeen site (base.joinName child.1) with
    | false => rfl
    | true =>
      rw [if_pos rfl, if_pos rfl, List.map_cons, List.map_cons, hline]
      refine congrArg _ ?_
      cases hentered : isEntered (base.joinName child.1) child.2 with
      | false => rfl
      | true =>
        rw [if_pos rfl, if_pos rfl, List.map_map, ih]
        refine List.map_congr_left fun rel hrel => ?_
        exact (row_cons ((mem_rowsBelow sound).mp hrel).proper).symm

/-- **The listing shows the pruned tree:** one line below the head for each entry that is shown, in
order. -/
def ShowsTree (project : Project) (site : Site) (base : Path) (levels : Nat) (loc : Location) : Prop :=
  ∃ rows : List Location, rows.Pairwise Location.Before ∧
    (∀ rel, rel ∈ rows ↔ Shown site (max levels 1) base loc rel) ∧
    project.listing site base levels =
      project.displayName base ++ "/\n" ++ String.join (rows.map (row site.files 0 loc))

/-- No entry is deeper than there are entries. -/
theorem shown_min (sound : site.files.Sound) :
    Shown site (min levels (site.files.entries.length + 1)) base loc rel ↔
      Shown site levels base loc rel := by
  constructor
  · intro h
    exact ⟨h.proper, h.found, h.shallow.trans (Nat.min_le_left _ _), h.seen, h.opened⟩
  · intro h
    have hlen := sound.length_le h.found
    rw [List.length_append] at hlen
    exact ⟨h.proper, h.found, Nat.le_min.mpr ⟨h.shallow, by omega⟩, h.seen, h.opened⟩

/-- **The listing of a folder shows its pruned tree.** -/
theorem showsTree_of_status (sound : site.files.Sound)
    (h : site.files.status true base = .ok (loc, .folder)) : ShowsTree project site base levels loc := by
  refine ⟨rowsBelow site (min (max levels 1) (site.files.entries.length + 1)) base loc,
    rowsBelow_sorted sound _ _ _, fun rel => (mem_rowsBelow sound).trans (shown_min sound), ?_⟩
  rw [← map_line_seenBelow sound, listing, seen, h]

end Project

end Arbor
