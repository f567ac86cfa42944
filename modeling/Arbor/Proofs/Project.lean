import Arbor.Proofs.FileSystem
import Arbor.Project

/-! # Where a project keeps its files

A project is *grounded* in a file system if its root is the path of a location, no link stands on
the way to it or below it, and the table is a tree. Then every path that the engine makes up is the
path of a location directly in a known folder: notes, documentation and scratch files.

* `grounded_of_openAt`: opening a folder grounds the project, as far as nothing below it is a link.
* `docPath_pathOf`, `nextScratch_pathOf`, `coderScratch_pathOf`: where these files are.
* `resolve_pathOf`: what a text without slashes means in a folder. -/

namespace Arbor

open FileSystem

namespace FileSystem

variable {fs : FileSystem} {loc : Location}

/-! ### Where a walk ends that follows links -/

theorem Clear.concat {n : String} (h : fs.Clear loc)
    (hn : ∀ t, fs.find? (loc ++ [n]) ≠ some (.link t)) : fs.Clear (loc ++ [n]) := by
  intro part hp
  rcases List.prefix_concat_iff.mp hp with rfl | hp
  · exact hn
  · exact h part hp

theorem clear_nil (fs : FileSystem) : fs.Clear [] := by
  intro part hp t
  rw [List.prefix_nil.mp hp, find?_nil]
  simp

/-- No piece of a split list holds what was split at. -/
theorem not_mem_of_mem_splitOn {c : Char} {cs piece : List Char} (h : piece ∈ cs.splitOn c) :
    c ∉ piece := by
  induction cs generalizing piece with
  | nil =>
    rw [List.splitOn_nil, List.mem_singleton] at h
    simp [h]
  | cons x cs ih =>
    rw [List.splitOn_cons_eq_if_modifyHead] at h
    split at h
    · rcases List.mem_cons.mp h with rfl | h
      · simp
      · exact ih h
    · next hx =>
      obtain ⟨first, rest, hsplit⟩ := List.exists_cons_of_ne_nil (List.splitOn_ne_nil c cs)
      rw [hsplit] at h ih
      rcases List.mem_cons.mp h with rfl | h
      · have hne : x ≠ c := by simpa using hx
        simp [hne.symm, ih List.mem_cons_self]
      · exact ih (List.mem_cons_of_mem first h)

theorem slashless_of_mem_steps {p : Path} {n : String} (h : n ∈ p.steps) :
    '/' ∉ n.toList ∧ n ≠ "" := by
  obtain ⟨hm, hne⟩ := List.mem_filter.mp h
  obtain ⟨cs, hcs, rfl⟩ := List.mem_map.mp hm
  refine ⟨?_, by simpa using hne⟩
  rw [String.toList_ofList]
  exact not_mem_of_mem_splitOn hcs

/-- A step onto an entry that is no link ends where no link stands on the way. -/
theorem Clear.arrive {n : String} {found : Option Entry} (hn : loc.Named) (hc : fs.Clear loc)
    (hname : IsName n) (hf : fs.find? (loc ++ [n]) = found) (hlink : ∀ t, found ≠ some (.link t)) :
    Location.Named (loc ++ [n]) ∧ fs.Clear (loc ++ [n]) := by
  refine ⟨hn.concat hname, hc.concat fun t => ?_⟩
  rw [hf]
  exact hlink t

/-- A walk that follows links ends where no link stands on the way. -/
theorem walkFrom_followed {links : Nat} {base r : Location} {slash : Bool} {steps : List String}
    (hs : ∀ n ∈ steps, '/' ∉ n.toList ∧ n ≠ "") (hn : base.Named) (hc : fs.Clear base)
    (h : fs.walkFrom .followed links base slash steps = .ok r) : r.Named ∧ fs.Clear r := by
  fun_induction walkFrom fs .followed links base slash steps with
  | case1 => cases h; exact ⟨hn, hc⟩
  | case2 _ _ _ rest ih => exact ih (fun n hm => hs n (by simp [hm])) hn hc h
  | case3 _ loc _ rest ih =>
    refine ih (fun n hm => hs n (by simp [hm])) (fun n hm => hn n ((List.dropLast_prefix loc).subset hm))
      (hc.up (List.dropLast_prefix loc)) h
  | case4 | case5 | case8 | case10 | case12 => cases h
  | case6 _ loc _ n rest hdot hup =>
    rename_i hf ih
    have hname : IsName n := ⟨(hs n (by simp)).1, (hs n (by simp)).2, hdot, hup⟩
    obtain ⟨hn', hc'⟩ := hc.arrive hn hname hf (by simp)
    exact ih (fun n hm => hs n (by simp [hm])) hn' hc' h
  | case7 _ loc _ n rest hdot hup =>
    rename_i hf _
    rw [← Except.ok.inj h]
    exact hc.arrive hn ⟨(hs n (by simp)).1, (hs n (by simp)).2, hdot, hup⟩ hf (by simp)
  | case9 _ loc _ n rest hdot hup =>
    rename_i hf _
    rw [← Except.ok.inj h]
    exact hc.arrive hn ⟨(hs n (by simp)).1, (hs n (by simp)).2, hdot, hup⟩ hf (by simp)
  | case11 =>
    rename_i hf
    simp [Ending.follows] at hf
  | case13 _ loc _ n rest =>
    rename_i q ih
    -- the walk goes on from where the link stands or from the root, both of them behind us
    refine ih (fun m hm => ?_) ?_ ?_ h
    · rcases List.mem_append.mp hm with hm | hm
      · exact slashless_of_mem_steps hm
      · exact hs m (by simp [hm])
    · split
      · exact Location.Named.nil
      · exact hn
    · split
      · exact clear_nil fs
      · exact hc

end FileSystem

namespace Project

variable {project : Project} {files : FileSystem} {home dir : Location}

/-- **The project is grounded:** its root is a location that no link leads to or away from, and what
stands in the file system stands in folders. -/
structure Grounded (project : Project) (files : FileSystem) (home : Location) : Prop where
  root_eq : project.root = pathOf home
  named : home.Named
  clear : files.Clear home
  below : ∀ loc, home <+: loc → ∀ t, files.find? loc ≠ some (.link t)
  tree : files.IsTree

theorem Grounded.clear_inside (h : project.Grounded files home) {loc : Location}
    (hloc : home <+: loc) : files.Clear loc := by
  intro part hp
  rcases List.prefix_or_prefix_of_prefix hp hloc with hup | hdown
  · exact h.clear part hup
  · exact h.below part hdown

theorem Grounded.edit {files' : FileSystem} {places : Location → Prop}
    (h : project.Grounded files home) (he : Edit places files files') :
    project.Grounded files' home where
  root_eq := h.root_eq
  named := h.named
  clear part hp t ht := h.clear part hp t (he.links part t ht)
  below loc hl t ht := h.below loc hl t (he.links loc t ht)
  tree := he.tree h.tree

/-- An open project is the one of the folder that its path leads to. -/
theorem folder_of_openAt {p : Path} {config : Config} (h : openAt files p config = .ok project) :
    ∃ home, files.walk .followed p = .ok home ∧ files.find? home = some .folder ∧
      project.root = (pathOf home).normalize := by
  unfold openAt at h
  split at h
  · cases h
  · next home hstatus =>
    cases h
    obtain ⟨hwalk, hfolder⟩ := status_eq_ok.mp hstatus
    exact ⟨home, hwalk, hfolder, rfl⟩
  · cases h

/-- **The root of an open project** is where its path leads, and no link leads to it. -/
theorem root_of_openAt {p : Path} {config : Config} (h : openAt files p config = .ok project)
    (hwalk : files.walk .followed p = .ok home) :
    project.root = pathOf home ∧ home.Named ∧ files.Clear home := by
  have hsteps : files.walkFrom .followed maxLinks [] p.asksFolder p.steps = .ok home := by
    unfold walk at hwalk
    split at hwalk
    · cases hwalk
    split at hwalk
    · cases hwalk
    split at hwalk
    · cases hwalk
    exact hwalk
  obtain ⟨hnamed, hclear⟩ := walkFrom_followed (fun n hn => slashless_of_mem_steps hn)
    Location.Named.nil (clear_nil files) hsteps
  obtain ⟨place, hplace, -, hroot⟩ := folder_of_openAt h
  obtain rfl := Except.ok.inj (hplace.symm.trans hwalk)
  exact ⟨hroot.trans (Path.normalize_pathOf hnamed), hnamed, hclear⟩

/-- A text of three characters or more without a slash is a name. -/
theorem isName_of_length {s : String} (h : '/' ∉ s.toList) (hl : 2 < s.length) : IsName s := by
  refine ⟨h, ?_, ?_, ?_⟩ <;>
  · rintro rfl
    revert hl
    decide

/-- The name that the files of a folder are named after. -/
def stemOf (dir : Location) : String := dir.getLast?.getD "project"

theorem stemOf_slashless (h : dir.Named) : '/' ∉ (stemOf dir).toList := by
  unfold stemOf
  cases hl : dir.getLast? with
  | none => decide
  | some n => exact (h n (List.mem_of_getLast? hl)).1

theorem folderStem_pathOf (h : dir.Named) : folderStem (pathOf dir) = stemOf dir := by
  unfold folderStem stemOf
  rcases List.eq_nil_or_concat' dir with rfl | ⟨init, n, rfl⟩
  · rw [Path.fileName?, Path.components_of_named h]
    rfl
  · rw [Path.fileName?_pathOf h, List.getLast?_concat]

/-- The name of a folder's notes. -/
def docName (dir : Location) : String := stemOf dir ++ "_README.md"

theorem isName_notes {stem : String} (h : '/' ∉ stem.toList) : IsName (stem ++ "_README.md") := by
  have hlength : "_README.md".length = 10 := by decide
  refine isName_of_length ?_ ?_
  · simp [h]
  · rw [String.length_append, hlength]
    omega

theorem isName_docName (h : dir.Named) : IsName (docName dir) := isName_notes (stemOf_slashless h)

/-- **Where the notes of a folder are.** -/
theorem docPath_pathOf (h : dir.Named) : docPath (pathOf dir) = pathOf (dir ++ [docName dir]) := by
  rw [docPath, folderStem_pathOf h]
  exact Path.joinName_pathOf h (isName_docName h).1

/-- **The project is rooted:** its root is a location that no link leads to, and what stands in the
file system stands in folders. There may be links below it, but no folder's notes are one. -/
structure Rooted (project : Project) (files : FileSystem) (home : Location) : Prop where
  root_eq : project.root = pathOf home
  named : home.Named
  clear : files.Clear home
  notes : ∀ dir, home <+: dir → ∀ t, files.find? (dir ++ [docName dir]) ≠ some (.link t)
  tree : files.IsTree

theorem Grounded.rooted (h : project.Grounded files home) : project.Rooted files home :=
  ⟨h.root_eq, h.named, h.clear, fun _ hin => h.below _ (hin.trans (List.prefix_append _ _)), h.tree⟩

theorem Rooted.clear_notes (h : project.Rooted files home) (hin : home <+: dir)
    (hc : files.Clear dir) : files.Clear (dir ++ [docName dir]) :=
  hc.concat (h.notes dir hin)

theorem isName_documentation : IsName "DOCUMENTATION.md" := by decide

/-- The name of a numbered scratch file. -/
def scratchName (stem : String) (n : Nat) (ext : String) : String :=
  stem ++ "_scratch_" ++ Nat.repr n ++ "." ++ ext

theorem slash_not_mem_toDigits (n : Nat) : '/' ∉ Nat.toDigits 10 n := by
  intro h
  have := Nat.isDigit_of_mem_toDigits (by decide) (by decide) h
  revert this
  decide

theorem isName_scratchName {stem ext : String} (n : Nat) (hs : '/' ∉ stem.toList)
    (he : '/' ∉ ext.toList) : IsName (scratchName stem n ext) := by
  refine isName_of_length ?_ ?_
  · simp [scratchName, hs, he, slash_not_mem_toDigits]
  · simp only [scratchName, String.length_append]
    have : "_scratch_".length = 9 := by decide
    omega

/-- What is found is one of the numbered names. -/
theorem firstFree_eq (fs : FileSystem) (start : Nat) (candidate : Nat → Path) (free : Path → Bool) :
    ∃ n, start ≤ n ∧ firstFree fs start candidate free = candidate n := by
  unfold firstFree
  cases hf : ((List.range' start (fs.entries.length + 1)).map candidate).find? free with
  | none => exact ⟨start, Nat.le_refl start, rfl⟩
  | some p =>
    obtain ⟨n, hn, rfl⟩ := List.mem_map.mp (List.mem_of_find?_eq_some hf)
    exact ⟨n, (List.mem_range'_1.mp hn).1, rfl⟩

/-- **Where a numbered scratch file of a folder is.** -/
theorem nextScratch_pathOf (site : Site) (h : dir.Named)
    (he : '/' ∉ project.config.scratchExtension.toList) :
    ∃ n, 1 ≤ n ∧ project.nextScratch site (pathOf dir) =
      pathOf (dir ++ [scratchName (stemOf dir) n project.config.scratchExtension]) := by
  obtain ⟨n, hn, hp⟩ := firstFree_eq site.files 1
    (fun n => (pathOf dir).joinName (folderStem (pathOf dir) ++ "_scratch_" ++ Nat.repr n ++ "." ++
      project.config.scratchExtension)) fun p => !site.files.exists? p
  refine ⟨n, hn, hp.trans ?_⟩
  simp only [folderStem_pathOf h]
  exact Path.joinName_pathOf h (isName_scratchName n (stemOf_slashless h) he).1

/-! ### The scratch file of a coder -/

/-- The text names the scratch file of a coder's file: numbered or not. -/
def IsCoderScratch (project : Project) (file name : String) : Prop :=
  let stem := (Path.splitExtension file).1
  let ext := (Path.splitExtension file).2.getD project.config.scratchExtension
  name = stem ++ "_scratch." ++ ext ∨ ∃ n, 2 ≤ n ∧ name = scratchName stem n ext

theorem splitExtension_slashless {file : String} (h : '/' ∉ file.toList) :
    '/' ∉ (Path.splitExtension file).1.toList ∧
      ∀ ext ∈ (Path.splitExtension file).2, '/' ∉ ext.toList := by
  simp only [Path.splitExtension]
  split
  · exact ⟨h, by simp⟩
  · refine ⟨fun hm => h ?_, fun ext hext hm => h ?_⟩
    · rw [String.toList_ofList] at hm
      have := (List.dropLast_subset _) hm
      rw [List.mem_reverse] at this
      exact List.mem_reverse.mp ((List.dropWhile_suffix _).subset this)
    · obtain rfl := Option.some.inj hext
      rw [String.toList_ofList, List.mem_reverse] at hm
      exact List.mem_reverse.mp ((List.takeWhile_prefix _).subset hm)

theorem IsCoderScratch.isName {file name : String} (h : IsCoderScratch project file name)
    (hf : '/' ∉ file.toList) (he : '/' ∉ project.config.scratchExtension.toList) : IsName name := by
  obtain ⟨hstem, hext⟩ := splitExtension_slashless hf
  have hx : '/' ∉ ((Path.splitExtension file).2.getD project.config.scratchExtension).toList := by
    cases hs : (Path.splitExtension file).2 with
    | none => exact he
    | some ext => exact hext ext hs
  rcases h with rfl | ⟨n, -, rfl⟩
  · refine isName_of_length ?_ ?_
    · simp [hstem, hx]
    · simp only [String.length_append]
      have : "_scratch.".length = 9 := by decide
      omega
  · exact isName_scratchName n hstem hx

/-- **Where the scratch file of a coder is:** beside its file. -/
theorem coderScratch_pathOf {file : String} (site : Site) (h : Location.Named (dir ++ [file]))
    (he : '/' ∉ project.config.scratchExtension.toList) :
    ∃ name, IsCoderScratch project file name ∧
      project.coderScratch site (pathOf (dir ++ [file])) = pathOf (dir ++ [name]) := by
  have hjoin : ∀ name, IsCoderScratch project file name →
      (pathOf dir).joinName name = pathOf (dir ++ [name]) := fun name hname =>
    Path.joinName_pathOf h.left (hname.isName h.last.1 he).1
  unfold coderScratch
  simp only [Path.fileStem?, Path.extension?, Path.fileName?_pathOf h, Path.parent?_pathOf h,
    Option.map_some, Option.bind_some, Option.getD_some]
  split
  · exact ⟨_, Or.inl rfl, hjoin _ (Or.inl rfl)⟩
  · obtain ⟨n, hn, hp⟩ := firstFree_eq site.files 2
      (fun n => (pathOf dir).joinName ((Path.splitExtension file).1 ++ "_scratch_" ++ Nat.repr n ++
        "." ++ (Path.splitExtension file).2.getD project.config.scratchExtension))
      fun p => !site.files.exists? p || site.isScratch p
    exact ⟨_, Or.inr ⟨n, hn, rfl⟩, hp.trans (hjoin _ (Or.inr ⟨n, hn, rfl⟩))⟩

theorem splitExtension_bare {file : String} (bare : '.' ∉ file.toList) :
    Path.splitExtension file = (file, none) := by
  have hdrop : file.toList.reverse.dropWhile (· != '.') = [] :=
    List.dropWhile_eq_nil_iff.mpr fun c hc => by
      have hmem := List.mem_reverse.mp hc
      simpa using fun h : c = '.' => bare (h ▸ hmem)
  simp only [Path.splitExtension, hdrop]
  rfl

theorem splitExtension_dotted {stem ext : String} (named : stem ≠ "") (plain : '.' ∉ ext.toList) :
    Path.splitExtension (stem ++ "." ++ ext) = (stem, some ext) := by
  have hchars : (stem ++ "." ++ ext).toList.reverse =
      ext.toList.reverse ++ '.' :: stem.toList.reverse := by
    simp
  have hext : ∀ c ∈ ext.toList.reverse, (c != '.') = true := fun c hc => by
    have hmem := List.mem_reverse.mp hc
    simpa using fun h : c = '.' => plain (h ▸ hmem)
  have htake : (stem ++ "." ++ ext).toList.reverse.takeWhile (· != '.') = ext.toList.reverse := by
    rw [hchars, List.takeWhile_append_of_pos hext]
    simp
  have hdrop : (stem ++ "." ++ ext).toList.reverse.dropWhile (· != '.') =
      '.' :: stem.toList.reverse := by
    rw [hchars, List.dropWhile_append_of_pos hext]
    simp
  have hlen : ¬ ('.' :: stem.toList.reverse).reverse.length ≤ 1 := by
    have hne : stem.toList ≠ [] := by simpa using named
    have := List.length_pos_of_ne_nil hne
    simp
    omega
  simp only [Path.splitExtension, htake, hdrop, if_neg hlen]
  simp

/-- **A file without an extension and its namesake with the extension of scratch files** have the same
scratch file. -/
theorem coderScratch_namesake {file : String} (site : Site) (h : Location.Named (dir ++ [file]))
    (bare : '.' ∉ file.toList) (plain : '.' ∉ project.config.scratchExtension.toList)
    (he : '/' ∉ project.config.scratchExtension.toList) :
    project.coderScratch site (pathOf (dir ++ [file ++ "." ++ project.config.scratchExtension])) =
      project.coderScratch site (pathOf (dir ++ [file])) := by
  have hname : IsName (file ++ "." ++ project.config.scratchExtension) := by
    obtain ⟨c, cs, hfile⟩ := List.exists_cons_of_ne_nil
      (show file.toList ≠ [] by simpa using h.last.2.1)
    have hdot : c ≠ '.' := fun hc => bare (by rw [hfile, hc]; exact List.mem_cons_self)
    refine ⟨by simp [h.last.1, he], ?_, ?_, ?_⟩ <;>
    · intro heq
      simpa [hfile, hdot] using congrArg String.toList heq
  have h' := h.left.concat hname
  simp only [coderScratch, Path.fileStem?, Path.extension?, Path.fileName?_pathOf h,
    Path.fileName?_pathOf h', Path.parent?_pathOf h, Path.parent?_pathOf h', Option.map_some,
    Option.bind_some, splitExtension_bare bare, splitExtension_dotted h.last.2.1 plain,
    Option.getD_some, Option.getD_none]

/-! ### Names in a folder -/

theorem trim_slashless {t : String} (h : '/' ∉ t.toList) : '/' ∉ (Text.trim t).toList := by
  intro hm
  rw [Text.trim, String.toList_ofList, Text.trimChars, Text.trimEndChars, List.mem_reverse] at hm
  have := (List.dropWhile_suffix _).subset hm
  rw [List.mem_reverse, Text.trimStartChars] at this
  exact h ((List.dropWhile_suffix _).subset this)

/-- What a text without slashes means in a folder. -/
theorem resolve_pathOf {t : String} (h : dir.Named) (ht : '/' ∉ t.toList) :
    resolve (pathOf dir) t = (pathOf (dir ++ [Text.trim t])).normalize := by
  have hj := Path.joinName_pathOf h (trim_slashless ht)
  rw [resolve, ← hj]
  rfl

/-- The notes of a folder and the documentation are kept by the engine. -/
theorem isDoc_docPath (project : Project) (h : dir.Named) :
    project.isDoc (docPath (pathOf dir)) = true := by
  have hn := h.concat (isName_docName h)
  unfold isDoc
  rw [docPath_pathOf h, Path.parent?_pathOf hn]
  simp only [docPath_pathOf h, (Path.same_pathOf hn hn).mpr rfl, Bool.or_true]

end Project

end Arbor
