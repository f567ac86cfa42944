import Arbor.Proofs.Project

/-! # What stands at the path of a location

Where no link is on the way, what file operations say of the path of a location comes down to what
stands at the location, and to whether its path is short enough to be walked.

* `walk_pathOf_iff`, `exists?_pathOf`, `isFolder_pathOf`: the path is walked and something is found.
* `writeText_pathOf`, `makeFolder_pathOf`, `removeFile_pathOf`, `removeFolder_pathOf`: what each
  operation needs and what it leaves.
* `Sound`, `mem_children`: in a table without repetitions the entries of a folder are what stands
  directly below it.
* `nextScratch_free`: a numbered scratch file is new. -/

namespace Arbor

open FileSystem

/-- The path of the location can be walked: there is no NUL in it, and it and its names are not too
long. -/
structure Location.Fits (loc : Location) : Prop where
  clean : (pathOf loc).text.toList.contains (Char.ofNat 0) = false
  short : (pathOf loc).text.utf8ByteSize ≤ maxPath
  names : ∀ n ∈ loc, n.utf8ByteSize ≤ maxName

/-- The path of an entry begins with that of its folder. -/
theorem exists_text_concat (loc : Location) (n : String) :
    ∃ more, (pathOf (loc ++ [n])).text = (pathOf loc).text ++ more := by
  by_cases hne : loc = []
  · subst hne
    exact ⟨n, by simp [pathOf]⟩
  · refine ⟨"/" ++ n, ?_⟩
    simp only [pathOf]
    rw [String.intercalate_append_of_ne_nil hne (by simp), String.intercalate_singleton]
    simp only [String.append_assoc]

/-- So can the path of the folder. -/
theorem Location.Fits.folder {loc : Location} {n : String} (h : Location.Fits (loc ++ [n])) :
    loc.Fits := by
  obtain ⟨more, hmore⟩ := exists_text_concat loc n
  have hclean := h.clean
  have hshort := h.short
  rw [hmore] at hclean hshort
  refine ⟨?_, ?_, fun m hm => h.names m (List.mem_append_left _ hm)⟩
  · rw [String.toList_append, List.contains_append, Bool.or_eq_false_iff] at hclean
    exact hclean.1
  · rw [String.utf8ByteSize_append] at hshort
    omega

namespace FileSystem

variable {fs fs' : FileSystem} {loc : Location}

/-! ### Walks -/

theorem asksFolder_pathOf (hn : loc.Named) (hne : loc ≠ []) : (pathOf loc).asksFolder = false := by
  simpa [Path.asksFolder] using Path.getLast?_pathOf hn hne

/-- Through folders a walk goes where its steps say. -/
theorem walkFrom_of_folders {ending : Ending} {links : Nat} {base : Location} {steps : List String}
    (hn : Location.Named steps) (hs : ∀ n ∈ steps, n.utf8ByteSize ≤ maxName)
    (folders : ∀ part, part <+: steps → part ≠ [] → part ≠ steps →
      fs.find? (base ++ part) = some .folder)
    (hlink : ∀ t, fs.find? (base ++ steps) ≠ some (.link t)) :
    fs.walkFrom ending links base false steps = .ok (base ++ steps) := by
  induction steps generalizing base with
  | nil =>
    rw [walkFrom, List.append_nil]
  | cons n rest ih =>
    have hname := hn n (by simp)
    have hlong : ¬ maxName < n.utf8ByteSize := Nat.not_lt.mpr (hs n (by simp))
    have hwhole : (base ++ [n]) ++ rest = base ++ n :: rest := by simp
    rw [walkFrom_cons hname.2.2.1 hname.2.2.2]
    simp only [Bool.and_false, Bool.false_and, Bool.false_eq_true, if_false, hlong]
    by_cases hrest : rest = []
    · subst hrest
      cases hfind : fs.find? (base ++ [n]) with
      | none => rfl
      | some entry =>
        cases entry with
        | file content => rfl
        | folder => rw [walkFrom]
        | link t => exact absurd hfind (hlink t)
    · have hfolder := folders [n] (by simp) (by simp) (by simpa using hrest)
      rw [hfolder]
      simp only
      rw [ih (fun m hm => hn m (by simp [hm])) (fun m hm => hs m (by simp [hm])) ?_ ?_, hwhole]
      · intro part hp hne hne'
        rw [List.append_assoc, List.singleton_append]
        exact folders (n :: part) (List.cons_prefix_cons.mpr ⟨rfl, hp⟩) (by simp)
          fun he => hne' (List.cons.inj he).2
      · rw [hwhole]
        exact hlink

/-- The names on a walk are not too long. -/
theorem walkFrom_names {ending : Ending} {links : Nat} {base r : Location} {slash : Bool}
    {steps : List String} (hn : Location.Named steps) (hc : fs.Clear (base ++ steps))
    (h : fs.walkFrom ending links base slash steps = .ok r) :
    ∀ n ∈ steps, n.utf8ByteSize ≤ maxName := by
  induction steps generalizing base with
  | nil => simp
  | cons n rest ih =>
    have hname := hn n (by simp)
    have hwhole : (base ++ [n]) ++ rest = base ++ n :: rest := by simp
    rw [walkFrom_cons hname.2.2.1 hname.2.2.2] at h
    split at h
    · cases h
    split at h
    · cases h
    next hlong =>
    have hrest : ∀ m ∈ rest, m.utf8ByteSize ≤ maxName := by
      cases hfind : fs.find? (base ++ [n]) with
      | none =>
        simp only [hfind] at h
        split at h
        · next hnil => simp_all
        · cases h
      | some entry =>
        cases entry with
        | folder =>
          simp only [hfind] at h
          exact ih (fun m hm => hn m (by simp [hm])) (by rwa [hwhole]) h
        | file content =>
          simp only [hfind] at h
          split at h
          · next hnil => simp_all
          · cases h
        | link t => exact absurd hfind (hc (base ++ [n]) ⟨rest, hwhole⟩ t)
    intro m hm
    rcases List.mem_cons.mp hm with rfl | hm
    · exact Nat.not_lt.mp hlong
    · exact hrest m hm

/-- **The path of a location is walked** exactly if it fits and leads through folders. -/
theorem walk_pathOf_iff {ending : Ending} (hn : loc.Named) (hc : fs.Clear loc) :
    fs.walk ending (pathOf loc) = .ok loc ↔
      loc.Fits ∧ ∀ part, part <+: loc → part ≠ loc → fs.find? part = some .folder := by
  have hempty : (pathOf loc).text.isEmpty = false := by simp [pathOf]
  have hc' : fs.Clear ([] ++ loc) := hc
  constructor
  · intro h
    unfold walk at h
    split at h
    · cases h
    next hclean =>
    rw [hempty, if_neg (by simp)] at h
    split at h
    · cases h
    next hshort =>
    rw [Path.steps_pathOf hn] at h
    refine ⟨⟨by simpa using hclean, Nat.not_lt.mp hshort, walkFrom_names hn hc' h⟩,
      fun part hp hne => ?_⟩
    by_cases hnil : part = []
    · rw [hnil, find?_nil]
    · simpa using (walkFrom_of_clear hn hc' h).2 part hp hnil hne
  · rintro ⟨fits, folders⟩
    unfold walk
    rw [if_neg (by rw [fits.clean]; simp), hempty, if_neg (by simp),
      if_neg (Nat.not_lt.mpr fits.short), Path.steps_pathOf hn]
    by_cases hnil : loc = []
    · subst hnil
      rw [walkFrom]
    · rw [asksFolder_pathOf hn hnil]
      refine walkFrom_of_folders hn fits.names (fun part hp _ hne => ?_) ?_
      · exact folders part hp hne
      · exact hc loc List.prefix_rfl

/-- In a tree, whatever stands somewhere is below folders. -/
theorem IsTree.folders (ht : fs.IsTree) (h : fs.find? loc ≠ none) {part : Location}
    (hp : part <+: loc) (hne : part ≠ loc) : fs.find? part = some .folder := by
  obtain ⟨more, rfl⟩ := hp
  exact ht.below h fun hnil => hne (by simp [hnil])

/-- No link leads to a folder in a tree. -/
theorem IsTree.clear_folder (ht : fs.IsTree) (folder : fs.find? loc = some .folder) :
    fs.Clear loc := by
  intro part hp t hlink
  by_cases hpart : part = loc
  · rw [hpart, folder] at hlink
    cases hlink
  · rw [ht.folders (by rw [folder]; simp) hp hpart] at hlink
    cases hlink

theorem status_pathOf {follow : Bool} {r : Location} {entry : Entry} (ht : fs.IsTree)
    (hn : loc.Named) (hc : fs.Clear loc) :
    fs.status follow (pathOf loc) = .ok (r, entry) ↔
      r = loc ∧ loc.Fits ∧ fs.find? loc = some entry := by
  rw [status_eq_ok]
  constructor
  · rintro ⟨hwalk, hfind⟩
    obtain ⟨rfl, -⟩ := walk_pathOf hn hc hwalk
    exact ⟨rfl, ((walk_pathOf_iff hn hc).mp hwalk).1, hfind⟩
  · rintro ⟨rfl, fits, hfind⟩
    have hfolders (part : Location) (hp : part <+: r) (hne : part ≠ r) :
        fs.find? part = some .folder := ht.folders (by rw [hfind]; simp) hp hne
    exact ⟨(walk_pathOf_iff hn hc).mpr ⟨fits, hfolders⟩, hfind⟩

/-- **Something stands at the path of a location.** -/
theorem exists?_pathOf (ht : fs.IsTree) (hn : loc.Named) (hc : fs.Clear loc) :
    fs.exists? (pathOf loc) = true ↔ loc.Fits ∧ fs.find? loc ≠ none := by
  unfold exists?
  constructor
  · intro h
    cases hs : fs.status true (pathOf loc) with
    | error error =>
      rw [hs] at h
      cases h
    | ok found =>
      obtain ⟨-, fits, hfind⟩ := (status_pathOf ht hn hc).mp hs
      exact ⟨fits, by rw [hfind]; simp⟩
  · rintro ⟨fits, hfind⟩
    obtain ⟨entry, hentry⟩ := Option.ne_none_iff_exists'.mp hfind
    rw [(status_pathOf ht hn hc).mpr ⟨rfl, fits, hentry⟩]
    rfl

/-- **A folder stands at the path of a location.** -/
theorem isFolder_pathOf (ht : fs.IsTree) (hn : loc.Named) (hc : fs.Clear loc) :
    fs.isFolder (pathOf loc) = true ↔ loc.Fits ∧ fs.find? loc = some .folder := by
  unfold isFolder
  constructor
  · intro h
    split at h
    · next r hs =>
      obtain ⟨-, fits, hfind⟩ := (status_pathOf ht hn hc).mp hs
      exact ⟨fits, hfind⟩
    · cases h
  · rintro ⟨fits, hfind⟩
    rw [(status_pathOf ht hn hc).mpr ⟨rfl, fits, hfind⟩]

/-! ### Operations -/

/-- **Writing** puts a file where no folder is. -/
theorem writeText_pathOf {text : String} (hn : loc.Named) (hc : fs.Clear loc)
    (h : fs.writeText (pathOf loc) text = .ok fs') :
    loc.Fits ∧ loc ≠ [] ∧ fs.find? loc.dropLast = some .folder ∧ fs.find? loc ≠ some .folder ∧
      fs' = fs.insert loc (.file text.toUTF8) := by
  obtain ⟨r, hwalk, hdone⟩ := bind_eq_ok.mp h
  obtain ⟨rfl, hparent⟩ := walk_pathOf hn hc hwalk
  have hfolder : fs.find? r ≠ some .folder := by
    intro hf
    rw [hf] at hdone
    cases hdone
  have hne : r ≠ [] := fun he => hfolder (by rw [he, find?_nil])
  refine ⟨((walk_pathOf_iff hn hc).mp hwalk).1, hne, hparent hne, hfolder, ?_⟩
  split at hdone
  · cases hdone
  · cases hdone
    rfl

/-- **Making a folder** puts it where nothing is. -/
theorem makeFolder_pathOf (hn : loc.Named) (hc : fs.Clear loc)
    (h : fs.makeFolder (pathOf loc) = .ok fs') :
    loc.Fits ∧ loc ≠ [] ∧ fs.find? loc.dropLast = some .folder ∧ fs.find? loc = none ∧
      fs' = fs.insert loc .folder := by
  obtain ⟨r, hwalk, hdone⟩ := bind_eq_ok.mp h
  obtain ⟨rfl, hparent⟩ := walk_pathOf hn hc hwalk
  cases hfind : fs.find? r with
  | some entry =>
    rw [hfind] at hdone
    cases hdone
  | none =>
    rw [hfind] at hdone
    cases hdone
    have hne : r ≠ [] := fun he => by rw [he, find?_nil] at hfind; cases hfind
    exact ⟨((walk_pathOf_iff hn hc).mp hwalk).1, hne, hparent hne, rfl, rfl⟩

/-- **Removing a file** takes it away. -/
theorem removeFile_pathOf (hn : loc.Named) (hc : fs.Clear loc)
    (h : fs.removeFile (pathOf loc) = .ok fs') :
    (∃ content, fs.find? loc = some (.file content)) ∧ fs' = fs.erase loc := by
  obtain ⟨r, hwalk, hdone⟩ := bind_eq_ok.mp h
  obtain ⟨rfl, -⟩ := walk_pathOf hn hc hwalk
  cases hfind : fs.find? r with
  | none =>
    rw [hfind] at hdone
    cases hdone
  | some entry =>
    rw [hfind] at hdone
    cases entry with
    | folder => cases hdone
    | link t => exact absurd hfind (hc r List.prefix_rfl t)
    | file content =>
      simp only at hdone
      split at hdone
      · cases hdone
      · cases hdone
        exact ⟨⟨content, rfl⟩, rfl⟩

/-- **Removing a folder** takes it away with everything in it. -/
theorem removeFolder_pathOf (ht : fs.IsTree) (hn : loc.Named) (hc : fs.Clear loc)
    (h : fs.removeFolder (pathOf loc) = .ok fs') :
    fs.find? loc = some .folder ∧ fs' = fs.erase loc := by
  obtain ⟨⟨r, entry⟩, hs, h⟩ := bind_eq_ok.mp h
  obtain ⟨rfl, -, hfind⟩ := (status_pathOf ht hn hc).mp hs
  cases entry with
  | file content => cases h
  | link t => exact absurd hfind (hc r List.prefix_rfl t)
  | folder =>
    cases h
    exact ⟨hfind, rfl⟩

/-! ### The entries of a folder -/

/-- The table is that of a file system: what stands somewhere stands in a folder, under a name, and
once. -/
structure Sound (fs : FileSystem) : Prop where
  tree : fs.IsTree
  named : ∀ e ∈ fs.entries, Location.Named e.1
  distinct : (fs.entries.map Prod.fst).Nodup

theorem Sound.named_of_find? (h : fs.Sound) (hfind : fs.find? loc ≠ none) : loc.Named := by
  by_cases hne : loc = []
  · rw [hne]
    exact .nil
  · obtain ⟨entry, hentry⟩ := Option.ne_none_iff_exists'.mp hfind
    exact h.named _ (mem_of_find? hne hentry)

theorem Sound.find?_of_mem (h : fs.Sound) {entry : Entry} (hne : loc ≠ [])
    (hm : (loc, entry) ∈ fs.entries) : fs.find? loc = some entry := by
  rw [find?_of_ne_nil fs hne]
  have hdistinct := h.distinct
  generalize fs.entries = entries at hm hdistinct
  induction entries with
  | nil => cases hm
  | cons first rest ih =>
    rw [List.map_cons, List.nodup_cons] at hdistinct
    rcases List.mem_cons.mp hm with rfl | hm
    · simp
    · have hother : (loc == first.1) = false := by
        simp only [beq_eq_false_iff_ne]
        rintro rfl
        exact hdistinct.1 (List.mem_map.mpr ⟨_, hm, rfl⟩)
      rw [List.lookup_cons, hother]
      exact ih hm hdistinct.2

theorem Sound.insert {entry : Entry} (h : fs.Sound) (hn : loc.Named) (hlink : ∀ t, entry ≠ .link t)
    (hparent : fs.find? loc.dropLast = some .folder)
    (hold : entry = .folder ∨ fs.find? loc ≠ some .folder) : (fs.insert loc entry).Sound where
  tree := (edit_insert hlink hparent hold).tree h.tree
  named e he := by
    rcases List.mem_cons.mp he with rfl | he
    · exact hn
    · exact h.named e (List.mem_filter.mp he).1
  distinct := by
    simp only [FileSystem.insert, List.map_cons, List.nodup_cons, List.mem_map, not_exists, not_and]
    refine ⟨fun e he hloc => ?_, (h.distinct.sublist (List.filter_sublist.map _))⟩
    simpa [hloc] using (List.mem_filter.mp he).2

theorem Sound.erase (h : fs.Sound) (loc : Location) : (fs.erase loc).Sound where
  tree := (edit_erase fs loc).tree h.tree
  named e he := h.named e (List.mem_filter.mp he).1
  distinct := h.distinct.sublist (List.filter_sublist.map _)

/-- No location is longer than the table. -/
theorem Sound.length_le (h : fs.Sound) (hfind : fs.find? loc ≠ none) :
    loc.length ≤ fs.entries.length := by
  have hmem : ∀ i < loc.length, loc.take (i + 1) ∈ fs.entries.map Prod.fst := by
    intro i hi
    have hne : loc.take (i + 1) ≠ [] := by
      intro hnil
      have hlen := congrArg List.length hnil
      simp only [List.length_take, List.length_nil] at hlen
      omega
    have hsome : fs.find? (loc.take (i + 1)) ≠ none := by
      by_cases hall : loc.take (i + 1) = loc
      · rwa [hall]
      · rw [h.tree.folders hfind (List.take_prefix _ _) hall]
        simp
    obtain ⟨entry, hentry⟩ := Option.ne_none_iff_exists'.mp hsome
    exact List.mem_map_of_mem (mem_of_find? hne hentry)
  have hsub : (List.range loc.length).map (fun i => loc.take (i + 1)) ⊆
      fs.entries.map Prod.fst := by
    intro part hpart
    obtain ⟨i, hi, rfl⟩ := List.mem_map.mp hpart
    exact hmem i (List.mem_range.mp hi)
  have hnodup : ((List.range loc.length).map fun i => loc.take (i + 1)).Nodup := by
    refine List.Nodup.map_on (fun i hi j hj heq => ?_) List.nodup_range
    have hlen := congrArg List.length heq
    simp only [List.length_take] at hlen
    have := List.mem_range.mp hi
    have := List.mem_range.mp hj
    omega
  simpa using (hnodup.subperm hsub).length_le

theorem nameIn?_eq_some {folder place : Location} {n : String} :
    nameIn? folder place = some n ↔ place = folder ++ [n] := by
  unfold nameIn?
  constructor
  · intro h
    split at h
    · next hp =>
      obtain ⟨more, rfl⟩ := List.isPrefixOf_iff_prefix.mp hp
      rw [List.drop_left] at h
      split at h
      · cases h
        rfl
      · cases h
    · cases h
  · rintro rfl
    rw [if_pos (List.isPrefixOf_iff_prefix.mpr (List.prefix_append folder [n])), List.drop_left]

/-- **The entries of a folder** are what stands directly below it. -/
theorem Sound.mem_children (h : fs.Sound) {n : String} {entry : Entry} :
    (n, entry) ∈ fs.children loc ↔ fs.find? (loc ++ [n]) = some entry := by
  unfold children
  rw [List.mem_mergeSort, List.mem_filterMap]
  constructor
  · rintro ⟨⟨place, found⟩, hm, hsome⟩
    obtain ⟨name, hname, heq⟩ := Option.map_eq_some_iff.mp hsome
    cases heq
    obtain rfl := nameIn?_eq_some.mp hname
    exact h.find?_of_mem (by simp) hm
  · intro hfind
    refine ⟨_, mem_of_find? (by simp) hfind, ?_⟩
    rw [nameIn?_eq_some.mpr rfl]
    rfl

/-- No name is listed twice. -/
theorem Sound.nodup_children (h : fs.Sound) (loc : Location) :
    ((fs.children loc).map Prod.fst).Nodup := by
  unfold children
  rw [((List.mergeSort_perm _ _).map Prod.fst).nodup_iff, List.map_filterMap]
  have hdistinct := h.distinct
  generalize fs.entries = entries at hdistinct
  induction entries with
  | nil => exact List.nodup_nil
  | cons first rest ih =>
    rw [List.map_cons, List.nodup_cons] at hdistinct
    rw [List.filterMap_cons]
    cases hname : nameIn? loc first.1 with
    | none => simpa using ih hdistinct.2
    | some n =>
      simp only [Option.map_some, List.nodup_cons]
      refine ⟨fun hm => hdistinct.1 ?_, ih hdistinct.2⟩
      obtain ⟨other, ho, hn⟩ := List.mem_filterMap.mp hm
      obtain ⟨pair, hpair, rfl⟩ := Option.map_eq_some_iff.mp hn
      obtain ⟨name, hother, rfl⟩ := Option.map_eq_some_iff.mp hpair
      rw [nameIn?_eq_some.mp hname, ← nameIn?_eq_some.mp hother]
      exact List.mem_map_of_mem ho

end FileSystem

/-! ### New scratch files -/

namespace Project

variable {project : Project} {site : Site} {home dir : Location}

/-- Among one more names than there are entries one is free. -/
theorem firstFree_free (fs : FileSystem) (start : Nat) (candidate : Nat → Path)
    (free : Path → Bool) {place : Nat → Location} (distinct : Function.Injective place)
    (taken : ∀ n, free (candidate n) = false → place n ∈ fs.entries.map Prod.fst) :
    free (firstFree fs start candidate free) = true := by
  unfold firstFree
  cases hfind : ((List.range' start (fs.entries.length + 1)).map candidate).find? free with
  | some p => exact List.find?_some hfind
  | none =>
    exfalso
    have hsub : (List.range' start (fs.entries.length + 1)).map place ⊆
        fs.entries.map Prod.fst := by
      intro loc hloc
      obtain ⟨n, hn, rfl⟩ := List.mem_map.mp hloc
      refine taken n ?_
      simpa using List.find?_eq_none.mp hfind _ (List.mem_map_of_mem hn)
    have hnodup : ((List.range' start (fs.entries.length + 1)).map place).Nodup :=
      List.Nodup.map distinct List.nodup_range'
    have hlen := (hnodup.subperm hsub).length_le
    simp at hlen

theorem scratchName_injective (stem ext : String) :
    Function.Injective fun n => scratchName stem n ext := by
  intro n m h
  have hrepr : Nat.repr n = Nat.repr m := by
    have h' := congrArg String.toList h
    simp only [scratchName, String.toList_append, List.append_assoc, List.append_cancel_left_eq,
      List.append_cancel_right_eq] at h'
    exact String.toList_injective h'
  exact Nat.repr_injective hrepr

/-- **A numbered scratch file is new.** -/
theorem nextScratch_free (grounded : project.Grounded site.files home) (hdir : dir.Named)
    (hin : home <+: dir) (he : '/' ∉ project.config.scratchExtension.toList) :
    site.files.exists? (project.nextScratch site (pathOf dir)) = false := by
  have hjoin : ∀ n, (pathOf dir).joinName (folderStem (pathOf dir) ++ "_scratch_" ++ Nat.repr n ++
      "." ++ project.config.scratchExtension) =
      pathOf (dir ++ [scratchName (stemOf dir) n project.config.scratchExtension]) := by
    intro n
    rw [folderStem_pathOf hdir]
    exact Path.joinName_pathOf hdir (isName_scratchName n (stemOf_slashless hdir) he).1
  have hinj : Function.Injective fun n =>
      dir ++ [scratchName (stemOf dir) n project.config.scratchExtension] := by
    intro n m h
    exact scratchName_injective _ _ (List.singleton_inj.mp (List.append_cancel_left h))
  have hfree := firstFree_free site.files 1
    (fun n => (pathOf dir).joinName (folderStem (pathOf dir) ++ "_scratch_" ++ Nat.repr n ++ "." ++
      project.config.scratchExtension)) (fun p => !site.files.exists? p) hinj fun n h => ?taken
  case taken =>
    simp only [hjoin, Bool.not_eq_false'] at h
    have hnamed := hdir.concat (isName_scratchName n (stemOf_slashless hdir) he)
    obtain ⟨-, hfind⟩ := (exists?_pathOf grounded.tree hnamed
      (grounded.clear_inside (hin.trans (List.prefix_append dir _)))).mp h
    obtain ⟨entry, hentry⟩ := Option.ne_none_iff_exists'.mp hfind
    exact List.mem_map_of_mem (mem_of_find? (by simp) hentry)
  exact (Bool.not_eq_true' _).mp hfree

end Project

end Arbor
