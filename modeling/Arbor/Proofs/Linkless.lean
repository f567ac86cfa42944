import Arbor.Proofs.NormalForm
import Arbor.Proofs.PathEnds

/-! # Files without links

Where no link is, a path leads to the location that its steps mean, or nowhere. So paths with one
normal form lead to one place, and a new file makes only those paths lead anywhere that mean its
place.

* `walk_straight`: without links a path leads to the location that it means.
* `destination_of_appeared`: what a new file makes appear. -/

namespace Arbor

open FileSystem

namespace FileSystem

variable {fs fs' : FileSystem} {base loc r : Location} {links : Nat} {slash : Bool} {p : Path}
  {ending : Ending} {steps : List String} {content : ByteArray}

/-! ### Walks -/

/-- **There are no links.** -/
def Straight (fs : FileSystem) : Prop := ∀ loc target, fs.find? loc ≠ some (.link target)

theorem walkFrom_straight (straight : fs.Straight)
    (h : fs.walkFrom ending links base slash steps = .ok r) : r = steps.foldl Path.stepFrom base := by
  fun_induction walkFrom fs ending links base slash steps with
  | case1 => exact (Except.ok.inj h).symm
  | case2 links base slash rest ih => exact ih h
  | case3 links base slash rest ih =>
    rw [List.foldl_cons, Path.stepFrom_up]
    exact ih h
  | case4 => cases h
  | case5 => cases h
  | case6 links base slash n rest dot up written long next folder ih =>
    rw [List.foldl_cons, Path.stepFrom, if_neg dot, if_neg up]
    exact ih h
  | case7 links base slash n rest dot up written long next content file ends =>
    obtain rfl : rest = [] := by simpa using (Bool.and_eq_true_iff.mp ends).1
    rw [List.foldl_cons, Path.stepFrom, if_neg dot, if_neg up]
    exact (Except.ok.inj h).symm
  | case8 => cases h
  | case9 links base slash n rest dot up written long next absent ends =>
    obtain rfl : rest = [] := by simpa using ends
    rw [List.foldl_cons, Path.stepFrom, if_neg dot, if_neg up]
    exact (Except.ok.inj h).symm
  | case10 => cases h
  | case11 links base slash n rest dot up written long next target link => exact absurd link (straight _ _)
  | case12 base slash n rest dot up written long next target link => exact absurd link (straight _ _)
  | case13 base slash n rest dot up written long next target link => exact absurd link (straight _ _)

/-- **Without links a path leads to the location that it means.** -/
theorem walk_straight (straight : fs.Straight) (h : fs.walk ending p = .ok r) : r = p.destination :=
  walkFrom_straight straight (walk_eq_ok.mp h).2

/-! ### A new file -/

theorem Straight.insert (straight : fs.Straight) (absent : fs.find? r = none) (content : ByteArray) :
    (fs.insert r (.file content)).Straight := fun loc target hlink =>
  straight loc target ((sameWays_insert absent content).back loc _ rfl hlink)

theorem read_eq_ok : fs.read p = .ok content ↔
    ∃ place, fs.walk .followed p = .ok place ∧ fs.find? place = some (.file content) := by
  unfold read
  constructor
  · intro h
    obtain ⟨⟨place, entry⟩, hstatus, hread⟩ := bind_eq_ok.mp h
    cases entry with
    | file old =>
      obtain rfl := Except.ok.inj hread
      exact ⟨place, status_eq_ok.mp hstatus⟩
    | folder => cases hread
    | link target => cases hread
  · rintro ⟨place, hat⟩
    rw [status_eq_ok.mpr hat]
    rfl

/-- What was there is still there. -/
theorem read_insert {old : ByteArray} (absent : fs.find? r = none) (h : fs.read p = .ok old) :
    (fs.insert r (.file content)).read p = .ok old := by
  obtain ⟨place, hwalk, hfind⟩ := read_eq_ok.mp h
  have hne : place ≠ r := by
    rintro rfl
    rw [absent] at hfind
    cases hfind
  have hlast := find?_insert_of_ne fs (.file content) hne
  exact read_eq_ok.mpr ⟨place, walk_of_ways (sameWays_insert absent content).there hlast hwalk,
    hlast.trans hfind⟩

theorem exists?_insert (content : ByteArray) (absent : fs.find? r = none) (h : fs.exists? p = true) :
    (fs.insert r (.file content)).exists? p = true := by
  obtain ⟨place, hwalk, hfind⟩ := exists?_eq_true.mp h
  have hne : place ≠ r := fun he => hfind (he ▸ absent)
  have hlast := find?_insert_of_ne fs (.file content) hne
  exact exists?_eq_true.mpr ⟨place, walk_of_ways (sameWays_insert absent content).there hlast hwalk,
    by rwa [hlast]⟩

/-- **Where a new file makes something appear,** the path means its place. -/
theorem destination_of_appeared (straight : fs.Straight) (absent : fs.find? r = none)
    (h : (fs.insert r (.file content)).exists? p = true) (before : fs.exists? p = false) :
    p.destination = r := by
  obtain ⟨place, hwalk, hfind⟩ := exists?_eq_true.mp h
  obtain rfl := walk_straight (straight.insert absent content) hwalk
  by_contra hne
  have hlast := find?_insert_of_ne fs (.file content) hne
  have hthere := walk_of_ways (sameWays_insert absent content).back hlast.symm hwalk
  rw [exists?_eq_true.mpr ⟨_, hthere, by rwa [← hlast]⟩] at before
  cases before

/-- **An empty file that is written where nothing is** stands at the location that its path means. -/
theorem writeText_straight {text : String} (straight : fs.Straight)
    (h : fs.writeText p text = .ok fs') (absent : fs.exists? p = false) :
    fs.find? p.destination = none ∧ fs' = fs.insert p.destination (.file text.toUTF8) ∧
      fs'.read p = .ok text.toUTF8 := by
  obtain ⟨r, place, hwalk, hfree, rfl, -, -⟩ := writeText_absent h absent
  obtain rfl := walk_straight straight hwalk
  refine ⟨hfree, rfl, ?_⟩
  obtain ⟨found, hfound, -⟩ := exists?_eq_true.mp (exists?_of_writeText h)
  obtain rfl := walk_straight (straight.insert hfree _) hfound
  have hne : p.destination ≠ [] := fun he => by rw [he, find?_nil] at hfree; cases hfree
  exact read_eq_ok.mpr ⟨_, hfound, find?_insert_self fs _ hne⟩

end FileSystem

end Arbor
