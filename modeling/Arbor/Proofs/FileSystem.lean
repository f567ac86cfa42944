import Arbor.Proofs.Outcome
import Arbor.Proofs.Path
import Arbor.Proofs.Table

/-! # What file operations change

Every operation is described by what it does to `FileSystem.find?`. An *edit* of a set of places
leaves every other place as it was, makes no link, and keeps the table a tree.

* `walk_pathOf`: where no link stands on the way, the path of a location leads to that location and
  nowhere else, through folders only.
* `edit_writeText`, `edit_makeFolder`, `edit_removeFile`, `edit_removeFolder`: each operation on such
  a path edits just the location, the last one with everything below it.
* `exists?_of_removeFile`: a file that was removed is gone, also where links lead to it.
* `exists?_of_writeText`: a file that was written is there. -/

namespace Arbor

namespace FileSystem

variable {fs fs' fs'' : FileSystem} {loc : Location}

/-! ### The table -/

theorem find?_nil (fs : FileSystem) : fs.find? [] = some .folder := rfl

theorem find?_of_ne_nil (fs : FileSystem) (h : loc ≠ []) : fs.find? loc = fs.entries.lookup loc := by
  cases loc with
  | nil => exact absurd rfl h
  | cons n loc => rfl

theorem find?_insert_self (fs : FileSystem) (entry : Entry) (h : loc ≠ []) :
    (fs.insert loc entry).find? loc = some entry := by
  rw [find?_of_ne_nil _ h]
  simp [insert]

theorem find?_insert_of_ne (fs : FileSystem) (entry : Entry) {other : Location} (h : other ≠ loc) :
    (fs.insert loc entry).find? other = fs.find? other := by
  by_cases hn : other = []
  · subst hn; rfl
  · have hb : (other == loc) = false := by simpa using h
    rw [find?_of_ne_nil _ hn, find?_of_ne_nil _ hn]
    simp only [insert, List.lookup_cons, hb]
    rw [lookup_filter (· != loc)]
    simp [h]

theorem find?_erase (fs : FileSystem) {other : Location} (hn : other ≠ []) :
    (fs.erase loc).find? other = if loc <+: other then none else fs.find? other := by
  rw [find?_of_ne_nil _ hn, find?_of_ne_nil _ hn]
  simp only [erase]
  rw [lookup_filter fun k => !loc.isPrefixOf k]
  by_cases h : loc <+: other
  · rw [List.isPrefixOf_iff_prefix.mpr h, if_pos h]
    rfl
  · have hb : loc.isPrefixOf other = false := by
      rwa [← Bool.not_eq_true, List.isPrefixOf_iff_prefix]
    rw [hb, if_neg h]
    rfl

/-! ### Trees and edits -/

/-- Whatever stands somewhere stands in a folder. -/
def IsTree (fs : FileSystem) : Prop :=
  ∀ loc n, fs.find? (loc ++ [n]) ≠ none → fs.find? loc = some .folder

theorem IsTree.below {more : Location} (h : fs.IsTree) (hloc : fs.find? (loc ++ more) ≠ none)
    (hne : more ≠ []) : fs.find? loc = some .folder := by
  induction more using List.reverseRecOn with
  | nil => exact absurd rfl hne
  | append_singleton more n ih =>
    have hf : fs.find? (loc ++ more) = some .folder := h (loc ++ more) n (by rwa [List.append_assoc])
    by_cases hm : more = []
    · simpa [hm] using hf
    · exact ih (by rw [hf]; simp) hm

/-- **The second file system is an edit of the first at the given places:** all others are as they
were, no link is new, and a tree stays one. -/
structure Edit (places : Location → Prop) (fs fs' : FileSystem) : Prop where
  same : ∀ loc, ¬ places loc → fs'.find? loc = fs.find? loc
  links : ∀ loc t, fs'.find? loc = some (.link t) → fs.find? loc = some (.link t)
  tree : fs.IsTree → fs'.IsTree

namespace Edit

variable {P Q : Location → Prop}

theorem refl (P : Location → Prop) (fs : FileSystem) : Edit P fs fs :=
  ⟨fun _ _ => rfl, fun _ _ h => h, fun h => h⟩

theorem trans (h : Edit P fs fs') (h' : Edit P fs' fs'') : Edit P fs fs'' where
  same loc hloc := (h'.same loc hloc).trans (h.same loc hloc)
  links loc t hl := h.links loc t (h'.links loc t hl)
  tree ht := h'.tree (h.tree ht)

theorem mono (h : Edit P fs fs') (hPQ : ∀ loc, P loc → Q loc) : Edit Q fs fs' where
  same loc hloc := h.same loc fun hp => hloc (hPQ loc hp)
  links := h.links
  tree := h.tree

end Edit

theorem edit_insert {entry : Entry} (hlink : ∀ t, entry ≠ .link t)
    (hparent : fs.find? loc.dropLast = some .folder)
    (hold : entry = .folder ∨ fs.find? loc ≠ some .folder) :
    Edit (· = loc) fs (fs.insert loc entry) where
  same other h := find?_insert_of_ne fs entry h
  links other t h := by
    by_cases ho : other = loc
    · by_cases hn : loc = []
      · rw [ho, hn, find?_nil] at h; cases h
      · rw [ho, find?_insert_self fs entry hn] at h
        exact absurd (Option.some.inj h) (hlink t)
    · rwa [find?_insert_of_ne fs entry ho] at h
  tree ht other n h := by
    by_cases hchild : other ++ [n] = loc
    · have hne : other ≠ loc := fun he => by simpa [he] using congrArg List.length hchild
      rw [find?_insert_of_ne fs entry hne]
      rwa [← hchild, List.dropLast_concat] at hparent
    · rw [find?_insert_of_ne fs entry hchild] at h
      have hf := ht other n h
      by_cases ho : other = loc
      · subst ho
        rcases hold with he | he
        · by_cases hn : other = []
          · rw [hn, find?_nil]
          · rw [find?_insert_self fs entry hn, he]
        · exact absurd hf he
      · rwa [find?_insert_of_ne fs entry ho]

theorem edit_erase (fs : FileSystem) (loc : Location) : Edit (loc <+: ·) fs (fs.erase loc) where
  same other h := by
    by_cases hn : other = []
    · subst hn; rfl
    · rw [find?_erase fs hn, if_neg h]
  links other t h := by
    by_cases hn : other = []
    · subst hn; exact h
    · rw [find?_erase fs hn] at h
      split at h
      · cases h
      · exact h
  tree ht other n h := by
    rw [find?_erase fs (by simp)] at h
    split at h
    · exact absurd rfl h
    · next hp =>
      have hf := ht other n h
      by_cases hn : other = []
      · rw [hn, find?_nil]
      · rw [find?_erase fs hn, if_neg fun hpo => hp (hpo.trans (List.prefix_append other [n]))]
        exact hf

/-- Where no folder stands, erasing takes one entry. -/
theorem edit_erase_leaf (ht : fs.IsTree) (hleaf : fs.find? loc ≠ some .folder) :
    Edit (· = loc) fs (fs.erase loc) where
  same other h := by
    by_cases hp : loc <+: other
    · obtain ⟨more, rfl⟩ := hp
      have hne : more ≠ [] := fun hm => h (by simp [hm])
      have hnone : fs.find? (loc ++ more) = none := by
        by_contra hsome
        exact hleaf (ht.below hsome hne)
      rw [find?_erase fs (by simp [hne]), if_pos (List.prefix_append loc more), hnone]
    · exact (edit_erase fs loc).same other hp
  links := (edit_erase fs loc).links
  tree := (edit_erase fs loc).tree

/-- What is found somewhere is listed there. -/
theorem mem_of_find? {entry : Entry} (hne : loc ≠ []) (h : fs.find? loc = some entry) :
    (loc, entry) ∈ fs.entries := by
  rw [find?_of_ne_nil fs hne] at h
  obtain ⟨front, back, hsplit, -⟩ := List.lookup_eq_some_iff.mp h
  simp [hsplit]

theorem isTree_of_forall (h : ∀ e ∈ fs.entries, fs.find? e.1.dropLast = some .folder) :
    fs.IsTree := by
  intro loc n hsome
  obtain ⟨entry, hentry⟩ := Option.ne_none_iff_exists'.mp hsome
  have := h _ (mem_of_find? (by simp) hentry)
  rwa [List.dropLast_concat] at this

theorem ne_link_of_forall (h : ∀ e ∈ fs.entries, ∀ t, e.2 ≠ .link t) (loc : Location) (t : String) :
    fs.find? loc ≠ some (.link t) := by
  intro hlink
  by_cases hne : loc = []
  · rw [hne, find?_nil] at hlink
    cases hlink
  · exact h _ (mem_of_find? hne hlink) t rfl

/-! ### Walks without links -/

/-- No link stands at the location or above it. -/
def Clear (fs : FileSystem) (loc : Location) : Prop :=
  ∀ part, part <+: loc → ∀ t, fs.find? part ≠ some (.link t)

theorem Clear.up {part : Location} (h : fs.Clear loc) (hp : part <+: loc) : fs.Clear part :=
  fun q hq => h q (hq.trans hp)

/-- Without links a walk goes where its steps say, and all but the last lead to folders. -/
theorem walkFrom_of_clear {ending : Ending} {links : Nat} {base r : Location} {slash : Bool}
    {steps : List String} (hn : Location.Named steps) (hc : fs.Clear (base ++ steps))
    (h : fs.walkFrom ending links base slash steps = .ok r) :
    r = base ++ steps ∧ ∀ part, part <+: steps → part ≠ [] → part ≠ steps →
      fs.find? (base ++ part) = some .folder := by
  induction steps generalizing base with
  | nil =>
    rw [walkFrom] at h
    cases h
    refine ⟨by simp, fun part hp hne => absurd (List.prefix_nil.mp hp) hne⟩
  | cons n rest ih =>
    have hname := hn n (by simp)
    rw [walkFrom] at h
    · split at h
      · cases h
      split at h
      · cases h
      have hnext : base ++ [n] <+: base ++ n :: rest :=
        ⟨rest, by rw [List.append_assoc, List.singleton_append]⟩
      have hwhole : (base ++ [n]) ++ rest = base ++ n :: rest := by simp
      -- Behind the last step nothing is left to say.
      have hlast : rest = [] → base ++ [n] = base ++ n :: rest ∧
          ∀ part, part <+: n :: rest → part ≠ [] → part ≠ n :: rest →
            fs.find? (base ++ part) = some .folder := by
        rintro rfl
        refine ⟨rfl, fun part hp hne hne' => ?_⟩
        rcases List.prefix_cons_iff.mp hp with rfl | ⟨q, rfl, hq⟩
        · exact absurd rfl hne
        · rw [List.prefix_nil.mp hq] at hne'
          exact absurd rfl hne'
      simp only at h
      split at h
      · next hfolder =>
        obtain ⟨hr, hf⟩ := ih (fun m hm => hn m (by simp [hm])) (by rwa [hwhole]) h
        refine ⟨by rw [hr, hwhole], fun part hp hne hne' => ?_⟩
        rcases List.prefix_cons_iff.mp hp with rfl | ⟨q, rfl, hq⟩
        · exact absurd rfl hne
        · by_cases hq0 : q = []
          · rw [hq0]; exact hfolder
          · have := hf q hq hq0 fun he => hne' (by rw [he])
            rwa [List.append_assoc, List.singleton_append] at this
      · split at h
        · next hrest =>
          cases h
          exact hlast (by simpa using (Bool.and_eq_true_iff.mp hrest).1)
        · cases h
      · split at h
        · next hrest =>
          cases h
          exact hlast (by simpa using hrest)
        · cases h
      · next t hlink => exact absurd hlink (hc (base ++ [n]) hnext t)
    · exact hname.2.2.1
    · exact hname.2.2.2

/-- **Without links the path of a location leads there,** and through folders only. -/
theorem walk_pathOf {ending : Ending} {r : Location} (hn : loc.Named) (hc : fs.Clear loc)
    (h : fs.walk ending (pathOf loc) = .ok r) :
    r = loc ∧ (loc ≠ [] → fs.find? loc.dropLast = some .folder) := by
  unfold walk at h
  split at h
  · cases h
  split at h
  · cases h
  split at h
  · cases h
  rw [Path.steps_pathOf hn] at h
  have hc' : fs.Clear ([] ++ loc) := hc
  obtain ⟨hr, hf⟩ := walkFrom_of_clear hn hc' h
  refine ⟨hr, fun hne => ?_⟩
  by_cases hd : loc.dropLast = []
  · rw [hd, find?_nil]
  · refine hf loc.dropLast (List.dropLast_prefix loc) hd fun he => ?_
    have := congrArg List.length he
    rw [List.length_dropLast] at this
    have := List.length_pos_iff.mpr hne
    omega

/-- **What stands at a path** is what stands where the path leads. -/
theorem status_eq_ok {follow : Bool} {p : Path} {entry : Entry} :
    fs.status follow p = .ok (loc, entry) ↔
      fs.walk (if follow then .followed else .kept) p = .ok loc ∧ fs.find? loc = some entry := by
  unfold status
  constructor
  · intro h
    obtain ⟨place, hwalk, hfound⟩ := bind_eq_ok.mp h
    cases hfind : fs.find? place with
    | none =>
      rw [hfind] at hfound
      cases hfound
    | some found =>
      rw [hfind] at hfound
      cases hfound
      exact ⟨hwalk, hfind⟩
  · rintro ⟨hwalk, hfind⟩
    simp only [hwalk, bind, Except.bind, hfind]
    rfl

/-! ### Operations on the path of a location -/

theorem edit_writeText {text : String} (hn : loc.Named) (hc : fs.Clear loc)
    (h : fs.writeText (pathOf loc) text = .ok fs') : Edit (· = loc) fs fs' := by
  obtain ⟨r, hw, ho⟩ := bind_eq_ok.mp h
  obtain ⟨rfl, hparent⟩ := walk_pathOf hn hc hw
  by_cases hf : fs.find? r = some .folder
  · rw [hf] at ho; cases ho
  have hne : r ≠ [] := fun he => hf (by rw [he, find?_nil])
  have hins : fs' = fs.insert r (.file text.toUTF8) := by
    split at ho
    · cases ho
    · cases ho; rfl
  rw [hins]
  exact edit_insert (by simp) (hparent hne) (Or.inr hf)

theorem edit_makeFolder (hn : loc.Named) (hc : fs.Clear loc)
    (h : fs.makeFolder (pathOf loc) = .ok fs') : Edit (· = loc) fs fs' := by
  obtain ⟨r, hw, ho⟩ := bind_eq_ok.mp h
  obtain ⟨rfl, hparent⟩ := walk_pathOf hn hc hw
  cases hf : fs.find? r with
  | some entry => rw [hf] at ho; cases ho
  | none =>
    rw [hf] at ho
    cases ho
    have hne : r ≠ [] := fun he => by rw [he, find?_nil] at hf; cases hf
    exact edit_insert (by simp) (hparent hne) (Or.inl rfl)

theorem edit_removeFile (ht : fs.IsTree) (hn : loc.Named) (hc : fs.Clear loc)
    (h : fs.removeFile (pathOf loc) = .ok fs') : Edit (· = loc) fs fs' := by
  obtain ⟨r, hw, ho⟩ := bind_eq_ok.mp h
  obtain ⟨rfl, -⟩ := walk_pathOf hn hc hw
  by_cases hf : fs.find? r = some .folder
  · rw [hf] at ho; cases ho
  have her : fs' = fs.erase r := by
    split at ho
    · cases ho
    · cases ho
    · split at ho
      · cases ho
      · cases ho; rfl
  rw [her]
  exact edit_erase_leaf ht hf

/-- Removing a folder erases the location that its path leads to. -/
theorem removeFolder_eq_ok {p : Path} (h : fs.removeFolder p = .ok fs') :
    ∃ r, fs.walk .kept p = .ok r ∧ fs' = fs.erase r := by
  obtain ⟨⟨r, entry⟩, hs, h⟩ := bind_eq_ok.mp h
  obtain ⟨r', hw, hs⟩ := bind_eq_ok.mp hs
  have hr : r' = r := by
    cases hf : fs.find? r' with
    | none => rw [hf] at hs; cases hs
    | some e => rw [hf] at hs; cases hs; rfl
  subst hr
  refine ⟨r', hw, ?_⟩
  cases entry with
  | file content => cases h
  | folder => cases h; rfl
  | link t => cases h; rfl

theorem edit_removeFolder (hn : loc.Named) (hc : fs.Clear loc)
    (h : fs.removeFolder (pathOf loc) = .ok fs') : Edit (loc <+: ·) fs fs' := by
  obtain ⟨r, hw, rfl⟩ := removeFolder_eq_ok h
  obtain ⟨rfl, -⟩ := walk_pathOf hn hc hw
  exact edit_erase fs r

/-! ### The entry `..` of the root -/

/-- The way up from the root of the file system stays there. -/
theorem walk_up (fs : FileSystem) (ending : Ending) : fs.walk ending (pathOf [".."]) = .ok [] := by
  have hs : (pathOf [".."]).steps = [".."] := by
    rw [Path.steps, Path.pieces_pathOf (by decide) (by simp)]
    rfl
  have hz : (pathOf [".."]).text.toList.contains (Char.ofNat 0) = false := by decide
  have hm : ¬ maxPath < (pathOf [".."]).text.utf8ByteSize := by decide
  unfold walk
  rw [if_neg (by rw [hz]; decide), if_neg (by decide), if_neg hm, hs, walkFrom, walkFrom]
  rfl

theorem status_up (fs : FileSystem) (follow : Bool) :
    fs.status follow (pathOf [".."]) = .ok ([], .folder) := by
  unfold status
  rw [walk_up]
  rfl

theorem exists?_up (fs : FileSystem) : fs.exists? (pathOf [".."]) = true := by
  rw [exists?, status_up]
  rfl

/-- A step to a name. -/
theorem walkFrom_cons {ending : Ending} {links : Nat} {base : Location} {slash : Bool} {n : String}
    {rest : List String} (dot : n = "." → False) (up : n = ".." → False) :
    fs.walkFrom ending links base slash (n :: rest) =
      if rest.isEmpty && slash && ending = .written then .error .isFolder
      else if maxName < n.utf8ByteSize then .error .nameTooLong
      else match fs.find? (base ++ [n]) with
        | some .folder => fs.walkFrom ending links (base ++ [n]) slash rest
        | some (.file _) =>
          if rest.isEmpty && !(slash && ending != .entered) then .ok (base ++ [n])
          else .error .notFolder
        | none => if rest.isEmpty then .ok (base ++ [n]) else .error .notFound
        | some (.link target) =>
          if rest.isEmpty && !ending.follows slash then .ok (base ++ [n])
          else match links with
            | 0 => .error .tooManyLinks
            | links + 1 => fs.walkFrom ending links (if Path.isAbsolute ⟨target⟩ then [] else base)
                (slash || (rest.isEmpty && Path.asksFolder ⟨target⟩))
                (Path.steps ⟨target⟩ ++ rest) := by
  rw [walkFrom]
  · split
    · rfl
    split
    · rfl
    simp only
    split
    · next h => rw [h]
    · next h => rw [h]
    · next h => rw [h]
    · next h => cases links <;> simp only [h]
  · exact dot
  · exact up

/-- A walk through a name that is not there ends there. -/
theorem walkFrom_of_absent {ending : Ending} {links : Nat} {base r : Location} {slash : Bool}
    {n : String} {rest : List String} (dot : n = "." → False) (up : n = ".." → False)
    (absent : fs.find? (base ++ [n]) = none)
    (h : fs.walkFrom ending links base slash (n :: rest) = .ok r) : fs.find? r = none := by
  rw [walkFrom_cons dot up] at h
  simp only [absent] at h
  split at h
  · cases h
  split at h
  · cases h
  split at h
  · cases h
    exact absent
  · cases h

/-- Whoever follows the way to an erased place finds nothing. -/
theorem walkFrom_erased {links : Nat} {base gone : Location} {slash : Bool} {steps : List String}
    (hne : gone ≠ []) (h : fs.walkFrom .entered links base slash steps = .ok gone) {r : Location}
    (hr : (fs.erase gone).walkFrom .followed links base slash steps = .ok r) :
    (fs.erase gone).find? r = none := by
  have gone_none : ∀ {other : Location}, gone <+: other → (fs.erase gone).find? other = none := by
    intro other hp
    have hother : other ≠ [] := fun h => hne (List.prefix_nil.mp (h ▸ hp))
    rw [find?_erase fs hother, if_pos hp]
  -- the same steps lead on as before, unless they pass an erased place
  have passes : ∀ {links : Nat} {base : Location} {slash : Bool} {n : String} {rest : List String},
      (n = "." → False) → (n = ".." → False) → gone <+: base ++ [n] →
      (fs.erase gone).walkFrom .followed links base slash (n :: rest) = .ok r →
      (fs.erase gone).find? r = none :=
    fun dot up hp hr => walkFrom_of_absent dot up (gone_none hp) hr
  fun_induction walkFrom fs .entered links base slash steps with
  | case1 =>
    rw [walkFrom] at hr
    cases h
    cases hr
    exact gone_none List.prefix_rfl
  | case2 links base slash rest ih =>
    rw [walkFrom] at hr
    exact ih h hr
  | case3 links base slash rest ih =>
    rw [walkFrom] at hr
    exact ih h hr
  | case4 => cases h
  | case5 => cases h
  | case6 links base slash n rest dot up written long next folder ih =>
    by_cases hp : gone <+: next
    · exact passes dot up hp hr
    · have hsame : (fs.erase gone).find? (base ++ [n]) = some .folder := by
        rw [find?_erase fs (by simp), if_neg hp]
        exact folder
      rw [walkFrom_cons dot up] at hr
      simp only [hsame, long, if_false, reduceCtorEq, decide_false, Bool.and_false,
        Bool.false_eq_true] at hr
      exact ih h hr
  | case7 links base slash n rest dot up written long next content file last =>
    exact passes dot up (Except.ok.inj h ▸ List.prefix_rfl) hr
  | case8 => cases h
  | case9 links base slash n rest dot up written long next absent last =>
    exact passes dot up (Except.ok.inj h ▸ List.prefix_rfl) hr
  | case10 => cases h
  | case11 links base slash n rest dot up written long next target link last =>
    exact passes dot up (Except.ok.inj h ▸ List.prefix_rfl) hr
  | case12 => cases h
  | case13 base slash n rest dot up written long next target link last links q ih =>
    by_cases hp : gone <+: next
    · exact passes dot up hp hr
    · have hsame : (fs.erase gone).find? (base ++ [n]) = some (.link target) := by
        rw [find?_erase fs (by simp), if_neg hp]
        exact link
      rw [walkFrom_cons dot up] at hr
      simp only [hsame, long, if_false, reduceCtorEq, decide_false, Bool.and_false,
        Bool.false_eq_true, Ending.follows, Bool.not_true] at hr
      exact ih h hr

/-- A walk that keeps a link at the end and fails, or leads to nothing, says the same as one that
follows it. -/
theorem walkFrom_of_entered {links : Nat} {base : Location} {slash : Bool} {steps : List String}
    {out : Except OsError Location} (h : fs.walkFrom .entered links base slash steps = out)
    (absent : ∀ r, out = .ok r → fs.find? r = none) :
    fs.walkFrom .followed links base slash steps = out := by
  fun_induction walkFrom fs .entered links base slash steps with
  | case1 =>
    rw [walkFrom]
    exact h
  | case2 links base slash rest ih =>
    rw [walkFrom]
    exact ih h
  | case3 links base slash rest ih =>
    rw [walkFrom]
    exact ih h
  | case4 links base slash n rest dot up written => simp at written
  | case5 links base slash n rest dot up written long =>
    rw [walkFrom_cons dot up]
    simpa [long] using h
  | case6 links base slash n rest dot up written long next folder ih =>
    have hfind : fs.find? (base ++ [n]) = some .folder := folder
    rw [walkFrom_cons dot up]
    simpa [hfind, long] using ih h
  | case7 links base slash n rest dot up written long next content file last =>
    have hnone := absent next h.symm
    rw [file] at hnone
    cases hnone
  | case8 links base slash n rest dot up written long next content file more =>
    have hfind : fs.find? (base ++ [n]) = some (.file content) := file
    have hrest : rest ≠ [] := by simpa using more
    rw [walkFrom_cons dot up]
    simpa [hfind, long, hrest] using h
  | case9 links base slash n rest dot up written long next none last =>
    have hfind : fs.find? (base ++ [n]) = Option.none := none
    have hrest : rest = [] := by simpa using last
    rw [walkFrom_cons dot up]
    simpa [hfind, long, hrest] using h
  | case10 links base slash n rest dot up written long next none more =>
    have hfind : fs.find? (base ++ [n]) = Option.none := none
    have hrest : rest ≠ [] := by simpa using more
    rw [walkFrom_cons dot up]
    simpa [hfind, long, hrest] using h
  | case11 links base slash n rest dot up written long next target link last =>
    have hnone := absent next h.symm
    rw [link] at hnone
    cases hnone
  | case12 base slash n rest dot up written long next target link more =>
    have hfind : fs.find? (base ++ [n]) = some (.link target) := link
    rw [walkFrom_cons dot up]
    simpa [hfind, long, Ending.follows] using h
  | case13 base slash n rest dot up written long next target link more links q ih =>
    have hfind : fs.find? (base ++ [n]) = some (.link target) := link
    rw [walkFrom_cons dot up]
    simpa [hfind, long, Ending.follows] using ih h

/-- The entries of a folder, once they are in order. -/
theorem children_of_pairwise {folder : Location} {entries : List (String × Entry)}
    (inside : (fs.entries.filterMap fun e => (nameIn? folder e.1).map fun n => (n, e.2)) = entries)
    (sorted : entries.Pairwise fun a b => (!decide (b.1 < a.1)) = true) :
    fs.children folder = entries := by
  rw [children, inside]
  exact List.mergeSort_of_pairwise sorted

/-- Something stands at a path if the walk to it ends at something. -/
theorem exists?_of_walk {p : Path} {loc : Location} (walk : fs.walk .followed p = .ok loc)
    (found : (fs.find? loc).isSome = true) : fs.exists? p = true := by
  obtain ⟨entry, hentry⟩ := Option.isSome_iff_exists.mp found
  unfold exists? status
  rw [if_pos rfl, walk]
  simp only [bind, Except.bind, hentry]
  rfl

/-- Nothing stands at a path if the walk to it ends at nothing. -/
theorem exists?_eq_false {p : Path} (h : ∀ r, fs.walk .followed p = .ok r → fs.find? r = none) :
    fs.exists? p = false := by
  unfold exists? status
  rw [if_pos rfl]
  cases hwalk : fs.walk .followed p with
  | error error => rfl
  | ok r =>
    simp only [bind, Except.bind, h r hwalk]
    rfl

/-- **A file that was removed is gone.** -/
theorem exists?_of_removeFile {p : Path} (h : fs.removeFile p = .ok fs') : fs'.exists? p = false := by
  obtain ⟨gone, hwalk, h⟩ := bind_eq_ok.mp h
  have herase : fs' = fs.erase gone ∧ gone ≠ [] := by
    split at h
    · cases h
    · cases h
    · next hfolder found =>
      split at h
      · cases h
      · cases h
        refine ⟨rfl, ?_⟩
        rintro rfl
        rw [find?_nil] at found
        exact hfolder (Option.some.inj found).symm
  obtain ⟨rfl, hne⟩ := herase
  refine exists?_eq_false fun r hr => ?_
  unfold walk at hwalk hr
  split at hwalk
  · cases hwalk
  · next hzero =>
    rw [if_neg hzero] at hr
    split at hwalk
    · cases hwalk
    · next hempty =>
      rw [if_neg hempty] at hr
      split at hwalk
      · cases hwalk
      · next hlong =>
        rw [if_neg hlong] at hr
        exact walkFrom_erased hne hwalk hr

/-- So is one that cannot be removed because it is absent. -/
theorem exists?_of_removeFile_notFound {p : Path} (h : fs.removeFile p = .error .notFound) :
    fs.exists? p = false := by
  have hend : ∀ r, fs.walk .entered p = .ok r → fs.find? r = none := by
    intro r hr
    unfold removeFile at h
    simp only [hr, bind, Except.bind] at h
    cases hfind : fs.find? r with
    | none => rfl
    | some entry =>
      simp only [hfind] at h
      cases entry with
      | folder => cases h
      | file content => by_cases hslash : p.asksFolder = true <;> simp [hslash] at h <;> cases h
      | link target => by_cases hslash : p.asksFolder = true <;> simp [hslash] at h <;> cases h
  have hsame : fs.walk .followed p = fs.walk .entered p := by
    unfold walk at hend ⊢
    split
    · rfl
    · next hzero =>
      split
      · rfl
      · next hempty =>
        split
        · rfl
        · next hlong =>
          rw [if_neg hzero, if_neg hempty, if_neg hlong] at hend
          exact walkFrom_of_entered rfl hend
  refine exists?_eq_false fun r hr => hend r ?_
  rw [← hsame]
  exact hr

/-! ### What is written -/

/-- Folders stand at the location and on the way to it. -/
def Paved (fs : FileSystem) (loc : Location) : Prop :=
  ∀ part, part <+: loc → fs.find? part = some .folder

theorem paved_nil (fs : FileSystem) : fs.Paved [] := fun part h => by
  rw [List.prefix_nil.mp h, find?_nil]

theorem Paved.up (h : fs.Paved loc) : fs.Paved loc.dropLast :=
  fun part hp => h part (hp.trans (List.dropLast_prefix loc))

theorem Paved.down (h : fs.Paved loc) {n : String} (folder : fs.find? (loc ++ [n]) = some .folder) :
    fs.Paved (loc ++ [n]) := by
  intro part hp
  rcases List.prefix_concat_iff.mp hp with rfl | hp
  · exact folder
  · exact h part hp

/-- Behind a link a walk goes on from the root or from where it is. -/
theorem Paved.start (h : fs.Paved loc) (q : Path) : fs.Paved (if q.isAbsolute then [] else loc) := by
  split
  · exact paved_nil fs
  · exact h

/-- A file is never written in the place of a link. -/
theorem walkFrom_written {links : Nat} {base r : Location} {slash : Bool} {steps : List String}
    (paved : fs.Paved base) (walk : fs.walkFrom .written links base slash steps = .ok r)
    (target : String) : fs.find? r ≠ some (.link target) := by
  fun_induction walkFrom fs .written links base slash steps with
  | case1 =>
    cases walk
    rw [paved _ List.prefix_rfl]
    simp
  | case2 links base slash rest ih => exact ih paved walk
  | case3 links base slash rest ih => exact ih paved.up walk
  | case4 => cases walk
  | case5 => cases walk
  | case6 links base slash n rest dot up written long next folder ih =>
    exact ih (paved.down folder) walk
  | case7 links base slash n rest dot up written long next content file last =>
    rw [← Except.ok.inj walk, file]
    simp
  | case8 => cases walk
  | case9 links base slash n rest dot up written long next absent last =>
    rw [← Except.ok.inj walk, absent]
    simp
  | case10 => cases walk
  | case11 links base slash n rest dot up written long next target link last =>
    simp [Ending.follows] at last
  | case12 => cases walk
  | case13 base slash n rest dot up written long next target link last links q ih =>
    exact ih (paved.start q) walk

/-- A walk that ends at a file which was just written. -/
theorem walkFrom_inserted_last {links : Nat} {base : Location} {slash : Bool} {n : String}
    {rest : List String} {content : ByteArray} (dot : n = "." → False) (up : n = ".." → False)
    (last : rest.isEmpty = true)
    (written : ¬ (rest.isEmpty && slash && decide (Ending.written = .written)) = true)
    (long : ¬ maxName < n.utf8ByteSize) :
    (fs.insert (base ++ [n]) (.file content)).walkFrom .followed links base slash (n :: rest) =
      .ok (base ++ [n]) := by
  have hslash : slash = false := by simpa [last] using written
  rw [walkFrom_cons dot up]
  simp only [find?_insert_self fs (.file content) (show base ++ [n] ≠ [] by simp), last, hslash,
    long, if_false, Bool.and_false, Bool.false_and, Bool.false_eq_true, Bool.not_false,
    Bool.and_true, if_true]

/-- Whoever follows the way on which a file was written finds the file. -/
theorem walkFrom_inserted {links : Nat} {base r : Location} {slash : Bool} {steps : List String}
    {content : ByteArray} (paved : fs.Paved base)
    (walk : fs.walkFrom .written links base slash steps = .ok r)
    (room : fs.find? r ≠ some .folder) :
    (fs.insert r (.file content)).walkFrom .followed links base slash steps = .ok r := by
  have solid := walkFrom_written paved walk
  -- the way leads through folders and links, none of which is overwritten
  have other : ∀ {place : Location} {entry : Entry}, fs.find? place = some entry →
      fs.find? r ≠ some entry → (fs.insert r (.file content)).find? place = some entry := by
    intro place entry found hne
    rw [find?_insert_of_ne fs, found]
    rintro rfl
    exact hne found
  fun_induction walkFrom fs .written links base slash steps with
  | case1 =>
    cases walk
    exact absurd (paved _ List.prefix_rfl) room
  | case2 links base slash rest ih =>
    rw [walkFrom]
    exact ih paved walk
  | case3 links base slash rest ih =>
    rw [walkFrom]
    exact ih paved.up walk
  | case4 => cases walk
  | case5 => cases walk
  | case6 links base slash n rest dot up written long next folder ih =>
    have hfind : (fs.insert r (.file content)).find? (base ++ [n]) = some .folder :=
      other folder room
    rw [walkFrom_cons dot up]
    simp only [hfind, long, if_false, reduceCtorEq, decide_false, Bool.and_false,
      Bool.false_eq_true]
    exact ih (paved.down folder) walk
  | case7 links base slash n rest dot up written long next content' file last =>
    obtain rfl : base ++ [n] = r := Except.ok.inj walk
    exact walkFrom_inserted_last dot up (Bool.and_eq_true_iff.mp last).1 written long
  | case8 => cases walk
  | case9 links base slash n rest dot up written long next absent last =>
    obtain rfl : base ++ [n] = r := Except.ok.inj walk
    exact walkFrom_inserted_last dot up last written long
  | case10 => cases walk
  | case11 links base slash n rest dot up written long next target link last =>
    simp [Ending.follows] at last
  | case12 => cases walk
  | case13 base slash n rest dot up written long next target link last links q ih =>
    have hfind : (fs.insert r (.file content)).find? (base ++ [n]) = some (.link target) :=
      other link (solid target)
    rw [walkFrom_cons dot up]
    simp only [hfind, long, if_false, reduceCtorEq, decide_false, Bool.and_false,
      Bool.false_eq_true, Ending.follows, Bool.not_true]
    exact ih (paved.start q) walk

/-- **A file that was written is there.** -/
theorem exists?_of_writeText {p : Path} {text : String} (h : fs.writeText p text = .ok fs') :
    fs'.exists? p = true := by
  obtain ⟨r, hwalk, h⟩ := bind_eq_ok.mp h
  by_cases room : fs.find? r = some .folder
  · rw [room] at h
    cases h
  have hins : fs' = fs.insert r (.file text.toUTF8) := by
    split at h
    · cases h
    · cases h
      rfl
  have hne : r ≠ [] := fun he => room (by rw [he, find?_nil])
  subst hins
  have walked : (fs.insert r (.file text.toUTF8)).walk .followed p = .ok r := by
    unfold walk at hwalk ⊢
    split at hwalk
    · cases hwalk
    · next hzero =>
      rw [if_neg hzero]
      split at hwalk
      · cases hwalk
      · next hempty =>
        rw [if_neg hempty]
        split at hwalk
        · cases hwalk
        · next hlong =>
          rw [if_neg hlong]
          exact walkFrom_inserted (paved_nil fs) hwalk room
  exact exists?_of_walk walked (by rw [find?_insert_self fs _ hne]; rfl)

end FileSystem

end Arbor
