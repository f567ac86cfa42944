import Arbor.Proofs.Joining
import Arbor.Proofs.Places

/-! # What stands at the end of a path

An entry is made where nothing stands. Whether something does is asked of where a path leads, links
followed; what is made there depends on the path itself, whose last name may be that of a link.

* `walkFrom_append`: a walk goes to the folder in the middle of its steps, and on from there.
* `walkFrom_carried`: where all folders and links are kept, a walk is led as before.
* `SameWays.walk_iff`: with the same folders and links, paths lead to the same places.
* `writeText_new`: a file that is written where nothing is, and not through a link, is a new entry.
* `ensureDoc_new`: a new folder gets its notes exactly if their name and path are short enough.
* `exists?_nextScratch`: in the folder of any path a numbered scratch file is absent. -/

namespace Arbor

open FileSystem

/-- The entry leads on: it is a folder or a link. -/
def Entry.leadsOn : Entry → Bool
  | .file _ => false
  | _ => true

namespace FileSystem

variable {fs fs' : FileSystem} {base r : Location} {links : Nat} {slash : Bool} {p : Path}
  {ending : Ending} {steps pre post : List String}

/-- **The entry at a path,** which may be a link. -/
def entryAt? (fs : FileSystem) (p : Path) : Option Entry :=
  (fs.walk .entered p).toOption.bind fs.find?

/-- The path is taken by the operating system at all. -/
structure Admitted (p : Path) : Prop where
  noNul : p.text.toList.contains (Char.ofNat 0) = false
  filled : p.text.isEmpty = false
  short : p.text.utf8ByteSize ≤ maxPath

/-- A walk takes the steps of its path. -/
theorem walk_eq_ok : fs.walk ending p = .ok r ↔
    Admitted p ∧ fs.walkFrom ending maxLinks [] p.asksFolder p.steps = .ok r := by
  unfold walk
  split
  · next h => exact iff_of_false (fun h => by cases h) fun ⟨ha, _⟩ => by rw [ha.noNul] at h; cases h
  next hnul =>
  split
  · next h => exact iff_of_false (fun h => by cases h) fun ⟨ha, _⟩ => by rw [ha.filled] at h; cases h
  next hempty =>
  split
  · next h => exact iff_of_false (fun h => by cases h) fun ⟨ha, _⟩ => absurd ha.short (Nat.not_le.mpr h)
  next hlong =>
  exact ⟨fun h => ⟨⟨by simpa using hnul, by simpa using hempty, Nat.not_lt.mp hlong⟩, h⟩, And.right⟩

theorem entryAt?_of_walk (h : fs.walk .entered p = .ok r) : fs.entryAt? p = fs.find? r := by
  rw [entryAt?, h]
  rfl

theorem entryAt?_eq_some {entry : Entry} :
    fs.entryAt? p = some entry ↔ ∃ r, fs.walk .entered p = .ok r ∧ fs.find? r = some entry := by
  unfold entryAt?
  cases hw : fs.walk .entered p with
  | error e => exact iff_of_false (fun h => by cases h) fun ⟨_, h, _⟩ => by cases h
  | ok r => exact ⟨fun h => ⟨r, rfl, h⟩, fun ⟨_, h, hf⟩ => by cases h; exact hf⟩

/-! ### A walk in two parts -/

/-- **A walk goes to the folder in the middle of its steps,** and on from there with the links that
are left. -/
theorem walkFrom_append (hpost : post ≠ [])
    (h : fs.walkFrom ending links base slash (pre ++ post) = .ok r) :
    ∃ mid links', fs.walkFrom .followed links base true pre = .ok mid ∧
      fs.walkFrom ending links' mid slash post = .ok r := by
  -- a link leads to steps of its own, with fewer links left
  induction links using Nat.strong_induction_on generalizing base pre with
  | h links outer =>
    induction pre generalizing base with
    | nil => exact ⟨base, links, by rw [walkFrom], h⟩
    | cons n pre ih =>
      by_cases dot : n = "."
      · subst dot
        rw [List.cons_append, walkFrom] at h
        rw [walkFrom]
        exact ih h
      by_cases up : n = ".."
      · subst up
        rw [List.cons_append, walkFrom] at h
        rw [walkFrom]
        exact ih h
      have hmore : (pre ++ post).isEmpty = false := by simp [hpost]
      rw [List.cons_append, walkFrom_cons dot up] at h
      rw [walkFrom_cons dot up]
      simp only [hmore, Bool.false_and, Bool.false_eq_true, if_false, Bool.or_false] at h
      split at h
      · cases h
      next long =>
      cases hfind : fs.find? (base ++ [n]) with
      | none =>
        simp only [hfind] at h
        cases h
      | some entry =>
        cases entry with
        | file content =>
          simp only [hfind] at h
          cases h
        | folder =>
          simp only [hfind] at h
          simpa [long] using ih h
        | link target =>
          cases links with
          | zero =>
            simp only [hfind] at h
            cases h
          | succ links =>
            simp only [hfind] at h
            rw [← List.append_assoc] at h
            simpa [long, Ending.follows] using outer links (Nat.lt_succ_self links) h

/-- **The folder of an entry:** a walk that keeps a link at the end comes to the folder first. -/
theorem walkFrom_entry {e : String} (he : IsName e) (keeps : ending.follows slash = false)
    (h : fs.walkFrom ending links base slash (pre ++ [e]) = .ok r) :
    ∃ dir, fs.walkFrom .followed links base true pre = .ok dir ∧ r = dir ++ [e] := by
  obtain ⟨dir, links', hdir, h⟩ := walkFrom_append (by simp) h
  refine ⟨dir, hdir, ?_⟩
  rw [walkFrom_cons he.2.2.1 he.2.2.2] at h
  simp only [List.isEmpty_nil, Bool.true_and, if_true, keeps, Bool.not_false, walkFrom] at h
  split at h
  · cases h
  split at h
  · cases h
  split at h
  · exact (Except.ok.inj h).symm
  · split at h
    · exact (Except.ok.inj h).symm
    · cases h
  · exact (Except.ok.inj h).symm
  · exact (Except.ok.inj h).symm

/-- The folder that the steps of a path lead to stands at the location. -/
def Leads (fs : FileSystem) (p : Path) (dir : Location) : Prop :=
  fs.walkFrom .followed maxLinks [] true p.steps = .ok dir

theorem Leads.unique {dir dir' : Location} (h : fs.Leads p dir) (h' : fs.Leads p dir') : dir' = dir :=
  Except.ok.inj (h'.symm.trans h)

/-- **Where the path of an entry leads:** to the entry of that name in the folder. -/
theorem leads_of_walk {dir : Path} {e : String} (isEntry : Path.IsEntry dir p e)
    (keeps : ending.follows false = false) (h : fs.walk ending p = .ok r) :
    ∃ loc, fs.Leads dir loc ∧ r = loc ++ [e] := by
  obtain ⟨-, h⟩ := walk_eq_ok.mp h
  rw [isEntry.steps, isEntry.plain] at h
  exact walkFrom_entry isEntry.isName keeps h

/-- A climb leads to the root. -/
theorem walkFrom_climb (h : ∀ n ∈ steps, n = "..") :
    fs.walkFrom ending links [] slash steps = .ok [] := by
  induction steps with
  | nil => rw [walkFrom]
  | cons n rest ih =>
    obtain rfl := h n List.mem_cons_self
    rw [walkFrom]
    exact ih fun m hm => h m (List.mem_cons_of_mem _ hm)

theorem walk_climb (h : p.Climbs) (hwalk : fs.walk ending p = .ok r) : r = [] := by
  obtain ⟨-, hwalk⟩ := walk_eq_ok.mp hwalk
  rw [walkFrom_climb h] at hwalk
  exact (Except.ok.inj hwalk).symm

theorem Leads.of_climbs {dir : Location} (h : fs.Leads p dir) (climbs : p.Climbs) : dir = [] := by
  rw [Leads, walkFrom_climb climbs] at h
  exact (Except.ok.inj h).symm

/-! ### The same folders and links -/

/-- The second file system has all folders and links of the first. -/
def Ways (fs fs' : FileSystem) : Prop :=
  ∀ loc entry, entry.leadsOn = true → fs.find? loc = some entry → fs'.find? loc = some entry

/-- A walk may end at what stands there. -/
def Ending.EndsAt (ending : Ending) (slash : Bool) : Option Entry → Prop
  | some (.file _) => slash = true → ending = .entered
  | some (.link _) => ending.follows slash = false
  | _ => True

/-- A walk whose last step leads to what it may end at ends there. -/
theorem walkFrom_ends {n : String} (dot : n = "." → False) (up : n = ".." → False)
    (short : ¬ maxName < n.utf8ByteSize) (plain : slash = true → ending ≠ .written)
    (ends : ending.EndsAt slash (fs.find? (base ++ [n]))) :
    fs.walkFrom ending links base slash [n] = .ok (base ++ [n]) := by
  rw [walkFrom_cons dot up, if_neg (by simpa using plain), if_neg short]
  cases hfind : fs.find? (base ++ [n]) with
  | none => rfl
  | some entry =>
    rw [hfind] at ends
    cases entry with
    | folder => simp only [walkFrom]
    | file content =>
      have entered : slash = true → ending = .entered := ends
      simpa [imp_iff_not_or] using entered
    | link target => simpa using fun follows => absurd (ends.symm.trans follows) (by simp)

/-- A walk that keeps a link at the end ends at its last name, whatever stands there. -/
theorem walkFrom_last {n : String} (dot : n = "." → False) (up : n = ".." → False)
    (short : ¬ maxName < n.utf8ByteSize) :
    fs.walkFrom .entered links base slash [n] = .ok (base ++ [n]) := by
  refine walkFrom_ends dot up short (by simp) ?_
  cases fs.find? (base ++ [n]) with
  | none => trivial
  | some entry => cases entry <;> simp [Ending.EndsAt, Ending.follows]

/-- **Where all folders and links are kept,** a walk is led as before; so it ends where it ended if it
may end there. -/
theorem walkFrom_carried {ending' : Ending} (ways : Ways fs fs')
    (follows : ∀ slash, ending'.follows slash = ending.follows slash)
    (writes : ending' = .written → ending = .written)
    (last : ∀ slash, (slash = true → ending ≠ .written) → ending.EndsAt slash (fs.find? r) →
      ending'.EndsAt slash (fs'.find? r))
    (h : fs.walkFrom ending links base slash steps = .ok r) :
    fs'.walkFrom ending' links base slash steps = .ok r := by
  have unwritten {here : Bool} (h : ¬ (here && decide (ending = .written)) = true) :
      ¬ (here && decide (ending' = .written)) = true := by
    simp only [Bool.and_eq_true, decide_eq_true_eq] at h ⊢
    exact fun hw => h ⟨hw.1, writes hw.2⟩
  fun_induction walkFrom fs ending links base slash steps with
  | case1 =>
    rw [walkFrom]
    exact h
  | case2 links base slash rest ih =>
    rw [walkFrom]
    exact ih h
  | case3 links base slash rest ih =>
    rw [walkFrom]
    exact ih h
  | case4 => cases h
  | case5 => cases h
  | case6 links base slash n rest dot up written long next folder ih =>
    have hfind : fs'.find? (base ++ [n]) = some .folder := ways _ _ rfl folder
    rw [walkFrom_cons dot up, if_neg (unwritten written), if_neg long, hfind]
    exact ih h
  | case7 links base slash n rest dot up written long next content file ends =>
    obtain rfl : rest = [] := by simpa using (Bool.and_eq_true_iff.mp ends).1
    obtain rfl : base ++ [n] = r := Except.ok.inj h
    have plain : slash = true → ending ≠ .written := by simpa using written
    refine walkFrom_ends dot up long (fun hs hw => plain hs (writes hw)) (last slash plain ?_)
    rw [show fs.find? (base ++ [n]) = some (.file content) from file]
    simpa [Ending.EndsAt, imp_iff_not_or] using ends
  | case8 => cases h
  | case9 links base slash n rest dot up written long next absent ends =>
    obtain rfl : rest = [] := by simpa using ends
    obtain rfl : base ++ [n] = r := Except.ok.inj h
    have plain : slash = true → ending ≠ .written := by simpa using written
    refine walkFrom_ends dot up long (fun hs hw => plain hs (writes hw)) (last slash plain ?_)
    rw [show fs.find? (base ++ [n]) = none from absent]
    trivial
  | case10 => cases h
  | case11 links base slash n rest dot up written long next target link ends =>
    obtain rfl : rest = [] := by simpa using (Bool.and_eq_true_iff.mp ends).1
    obtain rfl : base ++ [n] = r := Except.ok.inj h
    have plain : slash = true → ending ≠ .written := by simpa using written
    refine walkFrom_ends dot up long (fun hs hw => plain hs (writes hw)) (last slash plain ?_)
    rw [show fs.find? (base ++ [n]) = some (.link target) from link]
    simpa [Ending.EndsAt] using ends
  | case12 => cases h
  | case13 base slash n rest dot up written long next target link more links q ih =>
    have hfind : fs'.find? (base ++ [n]) = some (.link target) := ways _ _ rfl link
    rw [walkFrom_cons dot up, if_neg (unwritten written), if_neg long, hfind]
    simp only [follows, more]
    exact ih h

/-- **Where all folders and links are kept,** a path itself leads where it led. -/
theorem walk_ways (ways : Ways fs fs') (h : fs.walk .entered p = .ok r) :
    fs'.walk .entered p = .ok r := by
  obtain ⟨admitted, h⟩ := walk_eq_ok.mp h
  refine walk_eq_ok.mpr ⟨admitted, walkFrom_carried ways (fun _ => rfl) id (fun slash _ _ => ?_) h⟩
  cases fs'.find? r with
  | none => trivial
  | some entry => cases entry <;> simp [Ending.EndsAt, Ending.follows]

/-- Where also the same stands at its end, every walk ends where it ended. -/
theorem walk_of_ways (ways : Ways fs fs') (last : fs'.find? r = fs.find? r)
    (h : fs.walk ending p = .ok r) : fs'.walk ending p = .ok r := by
  obtain ⟨admitted, h⟩ := walk_eq_ok.mp h
  refine walk_eq_ok.mpr ⟨admitted, walkFrom_carried ways (fun _ => rfl) id (fun slash _ ends => ?_) h⟩
  rwa [last]

/-- The two file systems have the same folders and links. -/
structure SameWays (fs fs' : FileSystem) : Prop where
  there : Ways fs fs'
  back : Ways fs' fs

theorem SameWays.refl (fs : FileSystem) : SameWays fs fs := ⟨fun _ _ _ h => h, fun _ _ _ h => h⟩

theorem SameWays.trans {fs'' : FileSystem} (h : SameWays fs fs') (h' : SameWays fs' fs'') :
    SameWays fs fs'' where
  there loc entry leads hfind := h'.there loc entry leads (h.there loc entry leads hfind)
  back loc entry leads hfind := h.back loc entry leads (h'.back loc entry leads hfind)

/-- **With the same folders and links,** paths lead to the same places. -/
theorem SameWays.walk_iff (h : SameWays fs fs') :
    fs.walk .entered p = .ok r ↔ fs'.walk .entered p = .ok r :=
  ⟨walk_ways h.there, walk_ways h.back⟩

/-- So are files written at the same places. -/
theorem SameWays.walk_written (h : SameWays fs fs') (hwalk : fs.walk .written p = .ok r) :
    fs'.walk .written p = .ok r := by
  obtain ⟨admitted, hwalk⟩ := walk_eq_ok.mp hwalk
  refine walk_eq_ok.mpr
    ⟨admitted, walkFrom_carried h.there (fun _ => rfl) id (fun slash plain ends => ?_) hwalk⟩
  cases hfind : fs'.find? r with
  | none => trivial
  | some entry =>
    cases entry with
    | folder => trivial
    | file content => exact fun hs => absurd rfl (plain hs)
    | link target =>
      rw [h.back r _ rfl hfind] at ends
      cases ends

/-- A new file is neither a folder nor a link. -/
theorem sameWays_insert (absent : fs.find? r = none) (content : ByteArray) :
    SameWays fs (fs.insert r (.file content)) where
  there loc entry leads hfind := by
    rw [find?_insert_of_ne fs, hfind]
    rintro rfl
    rw [absent] at hfind
    cases hfind
  back loc entry leads hfind := by
    by_cases hloc : loc = r
    · have hne : r ≠ [] := fun h => by rw [h, find?_nil] at absent; cases absent
      rw [hloc, find?_insert_self fs _ hne] at hfind
      rw [← Option.some.inj hfind] at leads
      cases leads
    · rwa [find?_insert_of_ne fs _ hloc] at hfind

/-! ### New entries -/

/-- Whoever writes a file finds it where it is written. -/
theorem walkFrom_followed_of_written
    (h : fs.walkFrom .written links base slash steps = .ok r) :
    fs.walkFrom .followed links base slash steps = .ok r := by
  have follows (slash : Bool) : Ending.followed.follows slash = Ending.written.follows slash := rfl
  refine walkFrom_carried (fun _ _ _ hfind => hfind) follows (by simp) (fun slash plain ends => ?_) h
  cases hfind : fs.find? r with
  | none => trivial
  | some entry =>
    rw [hfind] at ends
    cases entry with
    | folder => trivial
    | file content => exact fun hs => absurd rfl (plain hs)
    | link target => exact ends

/-- A file is written at the path itself, or a link stands there. -/
theorem walkFrom_entered_of_written
    (h : fs.walkFrom .written links base slash steps = .ok r) :
    fs.walkFrom .entered links base slash steps = .ok r ∨
      ∃ place target, fs.walkFrom .entered links base slash steps = .ok place ∧
        fs.find? place = some (.link target) := by
  fun_induction walkFrom fs .written links base slash steps with
  | case1 =>
    rw [walkFrom]
    exact Or.inl h
  | case2 links base slash rest ih =>
    rw [walkFrom]
    exact ih h
  | case3 links base slash rest ih =>
    rw [walkFrom]
    exact ih h
  | case4 => cases h
  | case5 => cases h
  | case6 links base slash n rest dot up written long next folder ih =>
    have hfind : fs.find? (base ++ [n]) = some .folder := folder
    rw [walkFrom_cons dot up]
    simpa [hfind, long] using ih h
  | case7 links base slash n rest dot up written long next content file last =>
    obtain rfl : rest = [] := by simpa using (Bool.and_eq_true_iff.mp last).1
    rw [walkFrom_last dot up long]
    exact Or.inl h
  | case8 => cases h
  | case9 links base slash n rest dot up written long next absent last =>
    obtain rfl : rest = [] := by simpa using last
    rw [walkFrom_last dot up long]
    exact Or.inl h
  | case10 => cases h
  | case11 links base slash n rest dot up written long next target link last =>
    simp [Ending.follows] at last
  | case12 => cases h
  | case13 base slash n rest dot up written long next target link more links q ih =>
    cases rest with
    | nil => exact Or.inr ⟨_, target, walkFrom_last dot up long, link⟩
    | cons m rest =>
      have hfind : fs.find? (base ++ [n]) = some (.link target) := link
      rw [walkFrom_cons dot up]
      simpa [hfind, long, Ending.follows] using ih h

theorem writeText_eq_ok {text : String} (h : fs.writeText p text = .ok fs') :
    ∃ r, fs.walk .written p = .ok r ∧ fs.find? r ≠ some .folder ∧
      fs' = fs.insert r (.file text.toUTF8) := by
  obtain ⟨r, hwalk, h⟩ := bind_eq_ok.mp h
  refine ⟨r, hwalk, ?_⟩
  split at h
  · cases h
  · next room =>
    cases h
    exact ⟨room, rfl⟩

theorem makeFolder_eq_ok (h : fs.makeFolder p = .ok fs') :
    ∃ r, fs.walk .entered p = .ok r ∧ fs.find? r = none ∧ fs' = fs.insert r .folder := by
  obtain ⟨r, hwalk, h⟩ := bind_eq_ok.mp h
  refine ⟨r, hwalk, ?_⟩
  split at h
  · cases h
  · next absent =>
    cases h
    exact ⟨absent, rfl⟩

theorem removeFile_eq_ok (h : fs.removeFile p = .ok fs') :
    ∃ r, fs.walk .entered p = .ok r ∧ fs' = fs.erase r := by
  obtain ⟨r, hwalk, h⟩ := bind_eq_ok.mp h
  refine ⟨r, hwalk, ?_⟩
  split at h
  · cases h
  · cases h
  · split at h
    · cases h
    · cases h
      rfl

theorem exists?_eq_true :
    fs.exists? p = true ↔ ∃ r, fs.walk .followed p = .ok r ∧ fs.find? r ≠ none := by
  constructor
  · intro h
    by_contra hnone
    rw [exists?_eq_false fun r hr => by
      by_contra hfind
      exact hnone ⟨r, hr, hfind⟩] at h
    cases h
  · rintro ⟨r, hwalk, hfind⟩
    exact exists?_of_walk hwalk (Option.isSome_iff_ne_none.mpr hfind)

/-- **A file that is written where nothing is** is put at a free place, which is at the end of its path
unless a link stands there. -/
theorem writeText_absent {text : String} (h : fs.writeText p text = .ok fs')
    (absent : fs.exists? p = false) :
    ∃ r place, fs.walk .written p = .ok r ∧ fs.find? r = none ∧
      fs' = fs.insert r (.file text.toUTF8) ∧ fs.walk .entered p = .ok place ∧
      (place = r ∨ ∃ target, fs.find? place = some (.link target)) := by
  obtain ⟨r, hwalk, -, rfl⟩ := writeText_eq_ok h
  obtain ⟨admitted, hwritten⟩ := walk_eq_ok.mp hwalk
  have hfollowed := walk_eq_ok.mpr ⟨admitted, walkFrom_followed_of_written hwritten⟩
  have hfree : fs.find? r = none := by
    by_contra hfind
    rw [exists?_eq_true.mpr ⟨r, hfollowed, hfind⟩] at absent
    cases absent
  rcases walkFrom_entered_of_written hwritten with hsame | ⟨place, target, hplace, hlink⟩
  · exact ⟨r, r, hwalk, hfree, rfl, walk_eq_ok.mpr ⟨admitted, hsame⟩, Or.inl rfl⟩
  · exact ⟨r, place, hwalk, hfree, rfl, walk_eq_ok.mpr ⟨admitted, hplace⟩, Or.inr ⟨target, hlink⟩⟩

/-- **A file that is written where nothing is, and not through a link, is a new entry** at its path,
and nothing else is changed. -/
theorem writeText_new {text : String} (h : fs.writeText p text = .ok fs')
    (absent : fs.exists? p = false) (solid : ∀ t, fs.entryAt? p ≠ some (.link t)) :
    ∃ r, fs.walk .entered p = .ok r ∧ fs.find? r = none ∧
      fs' = fs.insert r (.file text.toUTF8) := by
  obtain ⟨r, place, -, hfree, hfiles, hplace, rfl | ⟨target, hlink⟩⟩ := writeText_absent h absent
  · exact ⟨place, hplace, hfree, hfiles⟩
  · exact absurd (entryAt?_eq_some.mpr ⟨place, hplace, hlink⟩) (solid target)

/-! ### The notes of a new folder -/

/-- **The way to a name in a new folder** is the way to the folder, and the name. -/
theorem walkFrom_below {m : String} (hm : IsName m) (paved : fs.Paved base)
    (h : fs.walkFrom .entered links base slash steps = .ok r) (absent : fs.find? r = none)
    (vacant : fs.find? (r ++ [m]) = none) :
    (fs.insert r .folder).walkFrom ending links base false (steps ++ [m]) =
      if maxName < m.utf8ByteSize then .error .nameTooLong else .ok (r ++ [m]) := by
  have hne : r ≠ [] := fun h => by rw [h, find?_nil] at absent; cases absent
  have old : ∀ {place : Location} {entry : Entry}, fs.find? place = some entry →
      (fs.insert r .folder).find? place = some entry := by
    intro place entry hfind
    rw [find?_insert_of_ne fs, hfind]
    rintro rfl
    rw [absent] at hfind
    cases hfind
  fun_induction walkFrom fs .entered links base slash steps with
  | case1 links base =>
    cases h
    rw [paved _ List.prefix_rfl] at absent
    cases absent
  | case2 links base slash rest ih =>
    rw [List.cons_append, walkFrom]
    exact ih paved h
  | case3 links base slash rest ih =>
    rw [List.cons_append, walkFrom]
    exact ih paved.up h
  | case4 => cases h
  | case5 => cases h
  | case6 links base slash n rest dot up written long next folder ih =>
    have hfind : (fs.insert r .folder).find? (base ++ [n]) = some .folder := old folder
    rw [List.cons_append, walkFrom_cons dot up]
    simpa [hfind, long] using ih (paved.down folder) h
  | case7 links base slash n rest dot up written long next content file last =>
    obtain rfl : next = r := Except.ok.inj h
    rw [file] at absent
    cases absent
  | case8 => cases h
  | case9 links base slash n rest dot up written long next none last =>
    obtain rfl : rest = [] := by simpa using last
    obtain rfl : base ++ [n] = r := Except.ok.inj h
    have hinner : (fs.insert (base ++ [n]) .folder).find? (base ++ [n] ++ [m]) = Option.none := by
      rw [find?_insert_of_ne fs _ (by simp), vacant]
    rw [List.cons_append, List.nil_append, walkFrom_cons dot up]
    simp only [List.isEmpty_cons, Bool.false_and, Bool.false_eq_true, if_false, long,
      find?_insert_self fs .folder hne]
    rw [walkFrom_cons hm.2.2.1 hm.2.2.2, hinner]
    simp
  | case10 => cases h
  | case11 links base slash n rest dot up written long next target link last =>
    obtain rfl : next = r := Except.ok.inj h
    rw [link] at absent
    cases absent
  | case12 => cases h
  | case13 base slash n rest dot up written long next target link more links q ih =>
    have hfind : (fs.insert r .folder).find? (base ++ [n]) = some (.link target) := old link
    have hmore : (rest ++ [m]).isEmpty = false := by simp
    rw [List.cons_append, walkFrom_cons dot up]
    simpa [hfind, long, hmore] using ih (paved.start q) h

end FileSystem

namespace Project

variable {fs fs' : FileSystem} {r : Location} {p : Path}

/-- The name of the notes of the folder at a path. -/
def notesName (p : Path) : String := folderStem p ++ "_README.md"

/-- **The notes of the folder fit:** their name and their path are not too long. -/
structure NotesFit (p : Path) : Prop where
  name : (notesName p).utf8ByteSize ≤ maxName
  path : (docPath p).text.utf8ByteSize ≤ maxPath

theorem isName_folderStem (p : Path) : IsName (folderStem p) := by
  unfold folderStem Path.fileName?
  split
  · next n hlast => exact (Path.name_mem_components (List.mem_of_getLast? hlast)).1
  · decide

theorem isName_notesName (p : Path) : IsName (notesName p) := by
  refine isName_of_length ?_ ?_
  · simp [notesName, (isName_folderStem p).1]
  · simp only [notesName, String.length_append]
    have : "_README.md".length = 10 := by decide
    omega

theorem docPath_noNul (h : Admitted p) : (docPath p).text.toList.contains (Char.ofNat 0) = false := by
  have hp : Char.ofNat 0 ∉ p.text.toList := by simpa using h.noNul
  have hstem : Char.ofNat 0 ∉ (folderStem p).toList := by
    unfold folderStem Path.fileName?
    split
    · next n hlast =>
      have hpiece := (Path.name_mem_components (List.mem_of_getLast? hlast)).2
      exact fun hc => hp (Path.mem_text_of_mem_pieces hpiece hc)
    · decide
  have hname : Char.ofNat 0 ∉ (notesName p).toList := by
    rw [notesName, String.toList_append]
    exact fun hc => (List.mem_append.mp hc).elim hstem (by decide)
  rw [← Bool.not_eq_true, List.contains_iff_mem]
  intro hc
  rcases Path.mem_text_joinName p (isName_notesName p).1 hc with hc | hc | hc
  · exact hp hc
  · revert hc
    decide
  · exact hname hc

/-- **A new folder gets its notes** exactly if they fit. -/
theorem ensureDoc_new (tree : fs.IsTree) (hwalk : fs.walk .entered p = .ok r)
    (absent : fs.find? r = none) :
    (NotesFit p ∧ ensureDoc (fs.insert r .folder) p =
      .ok ((fs.insert r .folder).insert (r ++ [notesName p]) (.file "".toUTF8))) ∨
    (¬ NotesFit p ∧ ∃ e, ensureDoc (fs.insert r .folder) p = .error e) := by
  obtain ⟨admitted, hwalk⟩ := walk_eq_ok.mp hwalk
  have hname := isName_notesName p
  have vacant : fs.find? (r ++ [notesName p]) = none := by
    by_contra hfind
    rw [tree r _ hfind] at absent
    cases absent
  have hne : r ++ [notesName p] ≠ r := fun h => by simpa using congrArg List.length h
  have hvacant : (fs.insert r .folder).find? (r ++ [notesName p]) = none := by
    rw [find?_insert_of_ne fs _ hne, vacant]
  have hsteps : (docPath p).steps = p.steps ++ [notesName p] := Path.steps_joinName p hname
  have hslash : (docPath p).asksFolder = false := Path.asksFolder_joinName p hname
  have hbelow : ∀ ending, (fs.insert r .folder).walkFrom ending maxLinks [] (docPath p).asksFolder
      (docPath p).steps = if maxName < (notesName p).utf8ByteSize then .error .nameTooLong
        else .ok (r ++ [notesName p]) := by
    intro ending
    rw [hsteps, hslash]
    exact walkFrom_below hname (paved_nil fs) hwalk absent vacant
  have hnew : (fs.insert r .folder).exists? (docPath p) = false := by
    refine exists?_eq_false fun r' hr' => ?_
    have h := (walk_eq_ok.mp hr').2
    rw [hbelow] at h
    split at h
    · cases h
    · rw [← Except.ok.inj h, hvacant]
  have hensure : ensureDoc (fs.insert r .folder) p =
      (fs.insert r .folder).writeText (docPath p) "" := by
    rw [ensureDoc, hnew]
    rfl
  rw [hensure]
  by_cases fit : NotesFit p
  · refine Or.inl ⟨fit, ?_⟩
    have hfilled : (docPath p).text.isEmpty = false := by
      rw [← Bool.not_eq_true]
      intro hempty
      have htext : (docPath p).text = "" := by simpa using hempty
      rw [show docPath p = ⟨(docPath p).text⟩ from rfl, htext, Path.steps_empty] at hsteps
      exact absurd hsteps.symm (by simp)
    have hadmitted : Admitted (docPath p) := ⟨docPath_noNul admitted, hfilled, fit.path⟩
    have hw : (fs.insert r .folder).walk .written (docPath p) = .ok (r ++ [notesName p]) :=
      walk_eq_ok.mpr ⟨hadmitted, by rw [hbelow, if_neg (Nat.not_lt.mpr fit.name)]⟩
    unfold writeText write
    rw [hw]
    simp only [bind, Except.bind, hvacant]
    rfl
  · refine Or.inr ⟨fit, ?_⟩
    cases hw : (fs.insert r .folder).writeText (docPath p) "" with
    | error e => exact ⟨e, rfl⟩
    | ok files =>
      obtain ⟨r', hr', -, -⟩ := writeText_eq_ok hw
      obtain ⟨hadmitted, h⟩ := walk_eq_ok.mp hr'
      rw [hbelow] at h
      split at h
      · cases h
      · next short => exact absurd ⟨Nat.not_lt.mp short, hadmitted.short⟩ fit

/-! ### Numbered scratch files -/

/-- The steps of a numbered scratch name: the first of them has the number in it. -/
theorem exists_steps_scratchName {stem : String} (hs : '/' ∉ stem.toList) (ext : String) :
    ∃ front more, '/' ∉ front.toList ∧
      ∀ n, (Path.mk (scratchName stem n ext)).steps = scratchName stem n front :: more := by
  have hone : ∀ front n, '/' ∉ front.toList →
      (Path.mk (scratchName stem n front)).steps = [scratchName stem n front] := by
    intro front n hfront
    have hname := isName_scratchName n hs hfront
    simp [Path.steps, Path.pieces_of_slashless hname.1, hname.2.1]
  by_cases hslash : '/' ∈ ext.toList
  · obtain ⟨front, back, hext, hfront⟩ := List.eq_append_cons_of_mem hslash
    have hfront' : '/' ∉ (String.ofList front).toList := by rwa [String.toList_ofList]
    refine ⟨String.ofList front, (Path.mk (String.ofList back)).steps, hfront', fun n => ?_⟩
    have hsplit : scratchName stem n ext =
        scratchName stem n (String.ofList front) ++ "/" ++ String.ofList back :=
      String.toList_injective (by simp [scratchName, hext])
    rw [hsplit, Path.steps_slashed, hone _ n hfront', List.singleton_append]
  · exact ⟨ext, [], hslash, fun n => hone ext n hslash⟩

theorem isAbsolute_scratchName {stem : String} (hs : '/' ∉ stem.toList) (n : Nat) (ext : String) :
    (Path.mk (scratchName stem n ext)).isAbsolute = false := by
  cases hchars : stem.toList with
  | nil => simp [Path.isAbsolute, scratchName, hchars]
  | cons c cs =>
    have hc : c ≠ '/' := fun h => hs (by rw [hchars, h]; exact List.mem_cons_self)
    simp [Path.isAbsolute, scratchName, hchars, hc]

/-- **The numbered names of a folder** stand in one place: a number is taken only if the name with it
does. -/
theorem numbered_taken (fs : FileSystem) (dir : Path) {stem : String} (hs : '/' ∉ stem.toList)
    (ext : String) : ∃ mid front, ∀ n, fs.exists? (dir.joinName (scratchName stem n ext)) = true →
      fs.find? (mid ++ [scratchName stem n front]) ≠ none := by
  obtain ⟨front, more, hfront, hsteps⟩ := exists_steps_scratchName hs ext
  have htaken : ∀ n, fs.exists? (dir.joinName (scratchName stem n ext)) = true →
      ∃ mid, fs.walkFrom .followed maxLinks [] true dir.steps = .ok mid ∧
        fs.find? (mid ++ [scratchName stem n front]) ≠ none := by
    intro n h
    obtain ⟨r, hwalk, hfind⟩ := exists?_eq_true.mp h
    obtain ⟨-, hwalk⟩ := walk_eq_ok.mp hwalk
    rw [Path.joinName, Path.steps_join (isAbsolute_scratchName hs n ext), hsteps n] at hwalk
    obtain ⟨mid, links, hmid, hrest⟩ := walkFrom_append (by simp) hwalk
    have hname := isName_scratchName n hs hfront
    exact ⟨mid, hmid, fun absent =>
      hfind (walkFrom_of_absent hname.2.2.1 hname.2.2.2 absent hrest)⟩
  cases hdir : fs.walkFrom .followed maxLinks [] true dir.steps with
  | error e =>
    refine ⟨[], front, fun n h => ?_⟩
    obtain ⟨mid, hmid, -⟩ := htaken n h
    rw [hdir] at hmid
    cases hmid
  | ok mid =>
    refine ⟨mid, front, fun n h => ?_⟩
    obtain ⟨mid', hmid, hfind⟩ := htaken n h
    rw [hdir] at hmid
    cases hmid
    exact hfind

/-- **A numbered scratch file is absent,** whatever the folder and the extension are. -/
theorem exists?_nextScratch (project : Project) (site : Site) (dir : Path) :
    site.files.exists? (project.nextScratch site dir) = false := by
  obtain ⟨mid, front, htaken⟩ := numbered_taken site.files dir (isName_folderStem dir).1
    project.config.scratchExtension
  have hdistinct : Function.Injective fun n => mid ++ [scratchName (folderStem dir) n front] :=
    fun n m h => scratchName_injective _ _ (List.singleton_inj.mp (List.append_cancel_left h))
  have hfree := firstFree_free site.files 1
    (fun n => dir.joinName (scratchName (folderStem dir) n project.config.scratchExtension))
    (fun p => !site.files.exists? p) hdistinct fun n h => ?taken
  case taken =>
    obtain ⟨entry, hentry⟩ := Option.ne_none_iff_exists'.mp (htaken n (by simpa using h))
    exact List.mem_map_of_mem (mem_of_find? (by simp) hentry)
  exact (Bool.not_eq_true' _).mp hfree

end Project

end Arbor
