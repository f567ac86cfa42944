import Arbor.Proofs.Census
import Arbor.Proofs.PathEnds

/-! # Where notes land

Making the notes of a folder writes an empty file where nothing is. Where a link stands at their path,
that may be in another folder. It is the same place whichever notes have been made before: these are
files, and a path leads through folders and links.

* `walkFrom_parent`: a path leads into a folder.
* `Lands`: the notes of a folder land somewhere.
* `Supplied`: the files when some folders have been given their notes.
* `Supplied.ensureDoc`: one more folder is given its notes. -/

namespace Arbor

open FileSystem

namespace FileSystem

variable {fs fs' : FileSystem} {base loc r : Location} {links : Nat} {slash : Bool} {p : Path}
  {ending : Ending} {steps : List String}

/-! ### What holds a path's end -/

/-- **A path leads into a folder.** -/
theorem walkFrom_parent (paved : fs.Paved base)
    (h : fs.walkFrom ending links base slash steps = .ok r) : fs.find? r.dropLast = some .folder := by
  fun_induction walkFrom fs ending links base slash steps with
  | case1 =>
    cases h
    exact paved.up _ List.prefix_rfl
  | case2 links base slash rest ih => exact ih paved h
  | case3 links base slash rest ih => exact ih paved.up h
  | case4 => cases h
  | case5 => cases h
  | case6 links base slash n rest dot up written long next folder ih => exact ih (paved.down folder) h
  | case7 links base slash n rest dot up written long next content file ends =>
    rw [← Except.ok.inj h, List.dropLast_concat]
    exact paved _ List.prefix_rfl
  | case8 => cases h
  | case9 links base slash n rest dot up written long next absent ends =>
    rw [← Except.ok.inj h, List.dropLast_concat]
    exact paved _ List.prefix_rfl
  | case10 => cases h
  | case11 links base slash n rest dot up written long next target link ends =>
    rw [← Except.ok.inj h, List.dropLast_concat]
    exact paved _ List.prefix_rfl
  | case12 => cases h
  | case13 base slash n rest dot up written long next target link more links q ih =>
    exact ih (paved.start q) h

/-- **A new file leaves the table sound.** -/
theorem Sound.written (sound : fs.Sound) (h : fs.walk .written p = .ok r) (free : fs.find? r = none)
    (content : ByteArray) : (fs.insert r (.file content)).Sound := by
  obtain ⟨-, hwalk⟩ := walk_eq_ok.mp h
  obtain ⟨hnamed, -⟩ := walkFrom_followed (fun n hn => slashless_of_mem_steps hn)
    Location.Named.nil (clear_nil fs) (walkFrom_followed_of_written hwalk)
  exact sound.insert hnamed (by simp) (walkFrom_parent (paved_nil fs) hwalk)
    (Or.inr (by rw [free]; simp))

end FileSystem

/-! ### Notes -/

variable {fs fs' fs'' : FileSystem} {dir loc : Location} {D D' : Location → Prop}

/-- **The notes of a folder land at the location** when they are made: nothing stands there, and that
is where they are written. -/
structure Lands (fs : FileSystem) (dir loc : Location) : Prop where
  free : fs.find? loc = none
  leads : fs.walk .written (Project.docPath (pathOf dir)) = .ok loc

/-- **The files when the folders of `D` have been given their notes.** -/
structure Supplied (D : Location → Prop) (fs fs' : FileSystem) : Prop where
  sound : fs'.Sound
  made : ∀ loc, (∃ dir, D dir ∧ Lands fs dir loc) → fs'.find? loc = some (.file "".toUTF8)
  kept : ∀ loc, (¬ ∃ dir, D dir ∧ Lands fs dir loc) → fs'.find? loc = fs.find? loc

namespace Supplied

theorem start (sound : fs.Sound) : Supplied (fun _ => False) fs fs where
  sound := sound
  made := fun _ ⟨_, h, _⟩ => h.elim
  kept := fun _ _ => rfl

theorem of_iff (h : Supplied D fs fs') (same : ∀ dir, D' dir ↔ D dir) : Supplied D' fs fs' := by
  obtain rfl : D' = D := funext fun dir => propext (same dir)
  exact h

/-- What was there is still there. -/
theorem old {entry : Entry} (h : Supplied D fs fs') (hfind : fs.find? loc = some entry) :
    fs'.find? loc = some entry := by
  rw [h.kept loc, hfind]
  rintro ⟨dir, -, lands⟩
  rw [lands.free] at hfind
  cases hfind

/-- What is there was there, or it is new notes. -/
theorem cases {entry : Entry} (h : Supplied D fs fs') (hfind : fs'.find? loc = some entry) :
    fs.find? loc = some entry ∨ entry = .file "".toUTF8 ∧ ∃ dir, D dir ∧ Lands fs dir loc := by
  by_cases hlands : ∃ dir, D dir ∧ Lands fs dir loc
  · rw [h.made loc hlands] at hfind
    exact Or.inr ⟨(Option.some.inj hfind).symm, hlands⟩
  · rw [h.kept loc hlands] at hfind
    exact Or.inl hfind

theorem folder_iff (h : Supplied D fs fs') :
    fs'.find? loc = some .folder ↔ fs.find? loc = some .folder := by
  refine ⟨fun hfind => ?_, h.old⟩
  rcases h.cases hfind with hfind | ⟨heq, -⟩
  · exact hfind
  · cases heq

theorem sameWays (h : Supplied D fs fs') : SameWays fs fs' where
  there _ _ _ hfind := h.old hfind
  back _ _ leads hfind := by
    rcases h.cases hfind with hfind | ⟨rfl, -⟩
    · exact hfind
    · cases leads

/-- Where the notes of a folder land does not depend on what has been supplied. -/
theorem leads (h : Supplied D fs fs') (lands : Lands fs dir loc) :
    fs'.walk .written (Project.docPath (pathOf dir)) = .ok loc :=
  h.sameWays.walk_written lands.leads

/-- Where the folder has its notes already, nothing is to be made. -/
theorem add_of_exists (h : Supplied D fs fs')
    (there : fs'.exists? (Project.docPath (pathOf dir)) = true) :
    Supplied (fun l => D l ∨ l = dir) fs fs' where
  sound := h.sound
  made := by
    rintro loc ⟨other, hd | rfl, lands⟩
    · exact h.made loc ⟨other, hd, lands⟩
    -- the notes are there, and they are where they land
    obtain ⟨r, hwalk, hfind⟩ := exists?_eq_true.mp there
    obtain ⟨admitted, hwritten⟩ := walk_eq_ok.mp (h.leads lands)
    have hfollowed := walk_eq_ok.mpr ⟨admitted, walkFrom_followed_of_written hwritten⟩
    obtain rfl : r = loc := Except.ok.inj (hwalk.symm.trans hfollowed)
    obtain ⟨entry, hentry⟩ := Option.ne_none_iff_exists'.mp hfind
    rcases h.cases hentry with hold | ⟨rfl, -⟩
    · cases lands.free.symm.trans hold
    · exact hentry
  kept := by
    intro loc hnone
    refine h.kept loc ?_
    rintro ⟨other, hd, lands⟩
    exact hnone ⟨other, Or.inl hd, lands⟩

/-- Where it has none, they are made where they land. -/
theorem add_of_written {r : Location} (h : Supplied D fs fs')
    (hwalk : fs'.walk .written (Project.docPath (pathOf dir)) = .ok r) (free : fs'.find? r = none) :
    Supplied (fun l => D l ∨ l = dir) fs (fs'.insert r (.file "".toUTF8)) := by
  have hne : r ≠ [] := fun he => by rw [he, find?_nil] at free; cases free
  have hback : SameWays fs' fs := ⟨h.sameWays.back, h.sameWays.there⟩
  have hfree : fs.find? r = none := by
    by_contra hsome
    obtain ⟨entry, hentry⟩ := Option.ne_none_iff_exists'.mp hsome
    cases free.symm.trans (h.old hentry)
  have hlands : Lands fs dir r := ⟨hfree, hback.walk_written hwalk⟩
  refine ⟨h.sound.written hwalk free _, ?_, ?_⟩
  · rintro loc ⟨other, hother, lands⟩
    by_cases hloc : loc = r
    · rw [hloc, find?_insert_self fs' _ hne]
    rw [find?_insert_of_ne fs' _ hloc]
    rcases hother with hd | rfl
    · exact h.made loc ⟨other, hd, lands⟩
    · exact absurd (Except.ok.inj (lands.leads.symm.trans hlands.leads)) hloc
  · intro loc hnone
    have hloc : loc ≠ r := by
      rintro rfl
      exact hnone ⟨dir, Or.inr rfl, hlands⟩
    rw [find?_insert_of_ne fs' _ hloc]
    refine h.kept loc ?_
    rintro ⟨other, hd, lands⟩
    exact hnone ⟨other, Or.inl hd, lands⟩

/-- **One more folder is given its notes,** whose path is then short enough to be opened. -/
theorem ensureDoc (h : Supplied D fs fs')
    (done : Project.ensureDoc fs' (pathOf dir) = .ok fs'') :
    Supplied (fun l => D l ∨ l = dir) fs fs'' ∧
      ∃ r, fs''.walk .followed (Project.docPath (pathOf dir)) = .ok r := by
  unfold Project.ensureDoc at done
  split at done
  · next there =>
    cases done
    obtain ⟨r, hwalk, -⟩ := exists?_eq_true.mp there
    exact ⟨h.add_of_exists there, r, hwalk⟩
  · next absent =>
    obtain ⟨r, -, hwalk, free, rfl, -⟩ := writeText_absent done (by simpa using absent)
    obtain ⟨found, hfound, -⟩ := exists?_eq_true.mp (exists?_of_writeText done)
    exact ⟨h.add_of_written hwalk free, found, hfound⟩

end Supplied

end Arbor
