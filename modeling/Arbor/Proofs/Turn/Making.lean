import Arbor.Proofs.Blank
import Arbor.Proofs.Turn.Fresh

/-! # Making an entry of a folder

Making a folder takes two operations: the folder, and the notes in it, whose name is longer. The first
is not taken back if the second fails. Making a file takes one, but it goes through a link that leads
nowhere.

* `Begins.isEntry`: what is changed is at the path of an entry of the agent's folder.
* `madeWhole_iff`: exactly when making an entry is all or nothing. -/

namespace Arbor.Turn

open FileSystem Directive Act

variable {project : Project} {d d' : Desk} {t : Target} {content : Option String} {entry : String}
  {path folder : Path} {made files : FileSystem}

/-! ### Where the entry is -/

theorem scope_of_ownEntry {site : Site} {a : Agent} (h : ownEntry project site a t = .ok (entry, path)) :
    ∃ folder, a.scope = .folder folder := by
  cases hs : a.scope with
  | folder dir => exact ⟨dir, rfl⟩
  | project | file =>
    simp only [ownEntry, hs, Scope.folder?] at h
    cases h

/-- **What a target means** in whatever folder: one of its entries, or the root of the file system,
where the way to the folder is a climb. -/
theorem ownEntry_isEntry {site : Site} {a : Agent} (scope : a.scope = .folder folder)
    (h : ownEntry project site a t = .ok (entry, path)) :
    Path.IsEntry folder.normalize path (Text.trim entry) ∨
      folder.normalize.Climbs ∧ path.Climbs := by
  obtain ⟨hentry, hpath, hin, hother, -, -⟩ := ownEntry_eq_ok scope h
  have hcases := Project.resolve_cases folder (entryName_slashless hentry)
  rw [← hpath] at hcases
  rcases hcases with ⟨-, hself⟩ | ⟨-, hclimb⟩ | hname
  · -- the folder itself is refused
    rw [hself, Path.same, decide_eq_false_iff_not] at hother
    exact absurd rfl hother
  · exact Or.inr (hclimb hin)
  · exact Or.inl hname

/-- The place of the root is never free. -/
theorem not_climbs_of_first (first : firstMade d.world.site.files t content path = .ok made) :
    ¬ path.Climbs := by
  intro hclimb
  unfold firstMade at first
  split at first
  · obtain ⟨r, hwalk, hnone, -⟩ := makeFolder_eq_ok first
    rw [walk_climb hclimb hwalk, find?_nil] at hnone
    cases hnone
  · obtain ⟨r, hwalk, hroom, -⟩ := writeText_eq_ok first
    rw [walk_climb hclimb hwalk, find?_nil] at hroom
    exact hroom rfl

/-- **What is changed first** is at the path of an entry of the agent's folder. -/
theorem Begins.isEntry (h : Begins project t content d entry path made) :
    ∃ folder, d.agent.scope = .folder folder ∧
      Path.IsEntry folder.normalize path (Text.trim entry) := by
  obtain ⟨folder, scope⟩ := scope_of_ownEntry h.own
  exact ⟨folder, scope, (ownEntry_isEntry scope h.own).resolve_right fun climbs =>
    not_climbs_of_first h.first climbs.2⟩

/-! ### All or nothing -/

/-- What stands at the new entry. -/
def newEntry (t : Target) (content : Option String) : Entry :=
  if t.isFolder then .folder else .file (content.getD "").toUTF8

/-- **The entry is made whole:** in the folder of the agent it is the only one that is new, a file
with its content or a folder with nothing but empty notes in it; one link is put under a free key; and
one agent is asked for, with the identity and the kind of the link and the path of the entry. -/
structure Placed (t : Target) (content : Option String) (d : Desk) (out : List Effect × Desk)
    (folder : Path) (dir : Location) (name key : String) (path : Path) : Prop where
  scope : d.agent.scope = .folder folder
  leads : d.world.site.files.Leads folder.normalize dir
  ends : d.world.site.files.walk .entered path = .ok (dir ++ [name])
  absent : d.world.site.files.find? (dir ++ [name]) = none
  files : ∀ loc, out.2.world.site.files.find? loc =
    if loc = dir ++ [name] then some (newEntry t content)
    else if t.isFolder = true ∧ loc = dir ++ [name, name ++ "_README.md"] then
      some (.file "".toUTF8)
    else d.world.site.files.find? loc
  alone : ∀ more, out.2.world.site.files.find? (dir ++ name :: more) ≠ none →
    more = [] ∨ t.isFolder = true ∧ more = [name ++ "_README.md"]
  claimed : out.2.world.site.scratch = d.world.site.scratch
  free : d.agent.children.get? key = none
  children : out.2.agent.children =
    d.agent.children.put key ⟨⟨d.world.nextNumber⟩, targetKind t⟩
  effects : out.1 = [.adopt ⟨d.world.nextNumber⟩ (targetKind t) path]

/-- What making an entry leaves, and what it asks of others. -/
def creation (project : Project) (t : Target) (content : Option String) (d : Desk) :
    List Effect × Desk :=
  interpret project (.create t content) d

/-- **Making an entry is all or nothing:** a refusal leaves the files, the claimed scratch files and
the children as they were and asks for nothing; else the entry is made whole. -/
structure MadeWhole (project : Project) (t : Target) (content : Option String) (d : Desk) : Prop where
  nothing : Refused project (.create t content) d →
    (creation project t content d).1 = [] ∧
      (creation project t content d).2.world.site = d.world.site ∧
      (creation project t content d).2.agent.children = d.agent.children
  whole : ¬ Refused project (.create t content) d → ∃ folder dir name key path,
    Placed t content d (creation project t content d) folder dir name key path

/-- **Nothing comes between:** once making an entry has begun, the notes of a folder fit, and no link
stands where a file is made. -/
def Unhindered (project : Project) (t : Target) (content : Option String) (d : Desk) : Prop :=
  ∀ entry path made, Begins project t content d entry path made →
    if t.isFolder then Project.NotesFit path
    else ∀ target, d.world.site.files.entryAt? path ≠ some (.link target)

/-- The files in which the entry of a folder has been made. -/
structure EntryPlaced (t : Target) (content : Option String) (fs files : FileSystem) (dir : Location)
    (name : String) : Prop where
  absent : fs.find? (dir ++ [name]) = none
  files : ∀ loc, files.find? loc =
    if loc = dir ++ [name] then some (newEntry t content)
    else if t.isFolder = true ∧ loc = dir ++ [name, name ++ "_README.md"] then
      some (.file "".toUTF8)
    else fs.find? loc

/-- In a tree nothing stands below the new entry but the notes. -/
theorem EntryPlaced.alone {fs : FileSystem} {dir : Location} {name : String}
    (h : EntryPlaced t content fs files dir name) (tree : fs.IsTree) {more : List String}
    (found : files.find? (dir ++ name :: more) ≠ none) :
    more = [] ∨ t.isFolder = true ∧ more = [name ++ "_README.md"] := by
  rw [h.files] at found
  split at found
  · next hself => exact Or.inl (by simpa using hself)
  next hself =>
  split at found
  · next hnotes =>
    refine Or.inr ⟨hnotes.1, ?_⟩
    have heq := List.append_cancel_left hnotes.2
    exact (List.cons.inj heq).2
  · -- what stood below an absent entry would stand in no folder
    have hmore : more ≠ [] := fun hmore => hself (by rw [hmore])
    rw [show dir ++ name :: more = (dir ++ [name]) ++ more by simp] at found
    have hfolder := tree.below found hmore
    rw [h.absent] at hfolder
    cases hfolder

/-- A file is placed as it is written, unless a link stands there. -/
theorem placed_file {fs : FileSystem} {dir : Path} {name : String}
    (isEntry : Path.IsEntry dir path name) (isFile : t.isFolder = false)
    (absent : fs.exists? path = false) (write : fs.writeText path (content.getD "") = .ok files)
    (solid : ∀ target, fs.entryAt? path ≠ some (.link target)) :
    ∃ loc, fs.Leads dir loc ∧ fs.walk .entered path = .ok (loc ++ [name]) ∧
      EntryPlaced t content fs files loc name := by
  obtain ⟨r, hwalk, hnone, rfl⟩ := writeText_new write absent solid
  obtain ⟨loc, hleads, rfl⟩ := leads_of_walk isEntry rfl hwalk
  refine ⟨loc, hleads, hwalk, hnone, fun other => ?_⟩
  have hnew : newEntry t content = .file (content.getD "").toUTF8 := by
    rw [newEntry, isFile]
    rfl
  simp only [isFile, Bool.false_eq_true, false_and, if_false, hnew]
  split
  · next hother =>
    rw [hother, find?_insert_self fs _ (by simp)]
  · next hother => exact find?_insert_of_ne fs _ hother

/-- A folder is placed with its notes. -/
theorem placed_folder {fs : FileSystem} {dir : Path} {name : String} (content : Option String)
    (isEntry : Path.IsEntry dir path name) (isFolder : t.isFolder = true) (tree : fs.IsTree)
    (make : fs.makeFolder path = .ok made) (notes : Project.ensureDoc made path = .ok files) :
    ∃ loc, fs.Leads dir loc ∧ fs.walk .entered path = .ok (loc ++ [name]) ∧
      EntryPlaced t content fs files loc name := by
  obtain ⟨r, hwalk, hnone, rfl⟩ := makeFolder_eq_ok make
  obtain ⟨loc, hleads, rfl⟩ := leads_of_walk isEntry rfl hwalk
  have hname : Project.notesName path = name ++ "_README.md" := by
    rw [Project.notesName, Project.folderStem, isEntry.fileName]
    rfl
  have hplace : loc ++ [name] ++ [name ++ "_README.md"] = loc ++ [name, name ++ "_README.md"] := by
    simp
  rcases Project.ensureDoc_new tree hwalk hnone with ⟨-, hnotes⟩ | ⟨-, e, herror⟩
  · rw [hname, hplace] at hnotes
    obtain rfl : _ = files := Except.ok.inj (hnotes.symm.trans notes)
    refine ⟨loc, hleads, hwalk, hnone, fun other => ?_⟩
    have hnew : newEntry t content = .folder := by rw [newEntry, isFolder]; rfl
    simp only [isFolder, true_and, hnew]
    split
    · next hother =>
      rw [hother, find?_insert_of_ne _ _ (by simp), find?_insert_self fs _ (by simp)]
    next hother =>
    split
    · next hinner =>
      rw [hinner, find?_insert_self _ _ (by simp)]
    · next hinner => rw [find?_insert_of_ne _ _ hinner, find?_insert_of_ne fs _ hother]
  · cases herror.symm.trans notes

/-- What was begun and not hindered is made whole. -/
theorem placed_of_done {note : String} (tree : d.world.site.files.IsTree)
    (begins : Begins project t content d entry path made)
    (second : (if t.isFolder then Project.ensureDoc made path else .ok made) = .ok files)
    (run : (perform project (.create t content)).run d =
      (.ok ⟨.succeeded note, [.adopt ⟨d.world.nextNumber⟩ (targetKind t) path]⟩,
        { agent := withChild d.agent entry ⟨d.world.nextNumber⟩ (targetKind t)
          world := { d.world.withFiles files with nextNumber := d.world.nextNumber + 1 } }))
    (solid : t.isFolder = false →
      ∀ target, d.world.site.files.entryAt? path ≠ some (.link target)) :
    ∃ folder dir, Placed t content d (creation project t content d) folder dir (Text.trim entry)
      entry path := by
  obtain ⟨folder, scope, isEntry⟩ := begins.isEntry
  obtain ⟨loc, hleads, hwalk, hplaced⟩ : ∃ loc, d.world.site.files.Leads folder.normalize loc ∧
      d.world.site.files.walk .entered path = .ok (loc ++ [Text.trim entry]) ∧
      EntryPlaced t content d.world.site.files files loc (Text.trim entry) := by
    have first := begins.first
    unfold firstMade at first
    by_cases hf : t.isFolder = true
    · rw [if_pos hf] at first second
      exact placed_folder content isEntry hf tree first second
    · rw [if_neg hf] at first second
      obtain rfl := Except.ok.inj second
      have isFile : t.isFolder = false := by simpa using hf
      exact placed_file isEntry isFile begins.absent first (solid isFile)
  have hrun := interpret_of_run run
  unfold creation
  rw [hrun]
  exact ⟨folder, loc, scope, hleads, hwalk, hplaced.absent, hplaced.files,
    fun more => hplaced.alone tree, rfl, begins.free, rfl, rfl⟩

/-- A folder that was made stays, although making it was refused. -/
theorem not_madeWhole_of_noteless {e : AgentError} (isFolder : t.isFolder = true)
    (begins : Begins project t content d entry path made)
    (run : (perform project (.create t content)).run d =
      (.error e, { d with world := d.world.withFiles made })) :
    ¬ MadeWhole project t content d := by
  intro whole
  have first := begins.first
  rw [firstMade, if_pos isFolder] at first
  obtain ⟨r, -, hnone, rfl⟩ := makeFolder_eq_ok first
  obtain ⟨-, hsite, -⟩ := whole.nothing ⟨e, by rw [run]⟩
  unfold creation at hsite
  rw [interpret_of_run run] at hsite
  have hfind : (d.world.site.files.insert r .folder).find? r = d.world.site.files.find? r :=
    congrArg (fun site => site.files.find? r) hsite
  have hne : r ≠ [] := fun h => by rw [h, find?_nil] at hnone; cases hnone
  rw [find?_insert_self _ _ hne, hnone] at hfind
  cases hfind

/-- A folder that was begun gets its notes exactly if they fit. -/
theorem Begins.notes_iff (h : Begins project t content d entry path made) (isFolder : t.isFolder = true)
    (tree : d.world.site.files.IsTree) :
    Project.NotesFit path ↔ ∃ files, Project.ensureDoc made path = .ok files := by
  have first := h.first
  rw [firstMade, if_pos isFolder] at first
  obtain ⟨r, hwalk, hnone, rfl⟩ := makeFolder_eq_ok first
  rcases Project.ensureDoc_new tree hwalk hnone with ⟨hfit, hok⟩ | ⟨hnot, e, herror⟩
  · exact iff_of_true hfit ⟨_, hok⟩
  · refine iff_of_false hnot ?_
    rintro ⟨files, hok⟩
    cases herror.symm.trans hok

/-- **Making an entry is all or nothing** exactly if nothing comes between. -/
theorem madeWhole_iff (project : Project) (t : Target) (content : Option String)
    (tree : d.world.site.files.IsTree) :
    MadeWhole project t content d ↔ Unhindered project t content d := by
  have hcreating := create_creating project t content d
  generalize hrun : ((create project t content).run d : Except AgentError Step × Desk) = out
    at hcreating
  have hperform : (perform project (.create t content)).run d = out := hrun
  cases hcreating with
  | refused e never =>
    have hinterpret := interpret_of_run hperform
    refine iff_of_true ⟨fun _ => ?_, fun fine => absurd ⟨e, by rw [hperform]⟩ fine⟩
      fun entry path made begins => absurd begins (never entry path made)
    unfold creation
    rw [hinterpret]
    exact ⟨rfl, rfl, rfl⟩
  | @noteless entry path made e begins isFolder notes =>
    refine iff_of_false (not_madeWhole_of_noteless isFolder begins hperform) fun unhindered => ?_
    have hfit := unhindered entry path _ begins
    rw [if_pos isFolder] at hfit
    obtain ⟨files, hok⟩ := (begins.notes_iff isFolder tree).mp hfit
    cases hok.symm.trans notes
  | @done entry path made files note begins second =>
    have fine := not_refused_of_run hperform
    by_cases solid : t.isFolder = false →
        ∀ target, d.world.site.files.entryAt? path ≠ some (.link target)
    · refine iff_of_true ⟨fun refused => absurd refused fine, fun _ => ?_⟩
        fun entry' path' made' begins' => ?_
      · obtain ⟨folder, dir, placed⟩ := placed_of_done tree begins second hperform solid
        exact ⟨folder, dir, _, _, _, placed⟩
      · obtain rfl := begins.unique begins'
        split
        · next isFolder =>
          rw [if_pos isFolder] at second
          exact (begins.notes_iff isFolder tree).mpr ⟨files, second⟩
        · next isFile => exact solid (by simpa using isFile)
    · refine iff_of_false (fun whole => solid fun _ target hlink => ?_) fun unhindered =>
        solid fun isFile => ?_
      · -- what is asked for is at the path of the link, where something stood
        obtain ⟨folder, dir, name, key, path', placed⟩ := whole.whole fine
        have heffects := placed.effects
        unfold creation at heffects
        rw [interpret_of_run hperform] at heffects
        obtain rfl : path = path' := by simpa [effectsOf] using heffects
        rw [entryAt?_of_walk placed.ends, placed.absent] at hlink
        cases hlink
      · have hsolid := unhindered entry path made begins
        rwa [isFile] at hsolid

theorem cellar_isTree : cellar.IsTree :=
  isTree_of_forall (by simp [cellar, find?, List.lookup])

/-- A folder beside the file that is there. -/
def cellarFolder : Target := ⟨"lib", true⟩

/-- It is made whole. -/
theorem madeWhole_cellar :
    cellarDesk.world.site.files.IsTree ∧
    ¬ Refused cellarProject (.create cellarFolder none) cellarDesk ∧
    MadeWhole cellarProject cellarFolder none cellarDesk := by
  have tree : cellarDesk.world.site.files.IsTree := cellar_isTree
  have hown : ownEntry cellarProject cellarDesk.world.site cellarDesk.agent cellarFolder =
      .ok ("lib", ⟨"/p/sub/lib"⟩) := by decide +kernel
  have fit : Project.NotesFit ⟨"/p/sub/lib"⟩ := ⟨by decide +kernel, by decide +kernel⟩
  refine ⟨tree, not_refused_of_isOk (by decide +kernel),
    (madeWhole_iff cellarProject cellarFolder none tree).mpr fun entry path made begins => ?_⟩
  cases hown.symm.trans begins.own
  exact fit

/-! ### Names without slashes -/

/-- Without slashes only blanks are dropped. -/
theorem bareName_of_slashless {name : String} (h : '/' ∉ name.toList) :
    bareName name = Text.trim name := by
  have hlast : (Text.trimChars name.toList).reverse.dropWhile (· == '/') =
      (Text.trimChars name.toList).reverse := by
    refine List.dropWhile_eq_self_iff.mpr fun hpos hslash => ?_
    have hmem := List.mem_reverse.mp (List.getElem_mem hpos)
    rw [beq_iff_eq.mp hslash] at hmem
    have htrim := Project.trim_slashless h
    rw [Text.trim, String.toList_ofList] at htrim
    exact htrim hmem
  rw [bareName, hlast, List.reverse_reverse, Text.trim]

/-- A name is the entry that it names. -/
theorem entryName_of_isName {n : String} (hn : IsName n) (trimmed : Text.trim n = n) (isFolder : Bool) :
    entryName ⟨n, isFolder⟩ = .ok n := by
  have hcomponents : (Path.mk n).components = [.name n] := by
    unfold Path.components
    rw [Path.pieces_of_slashless hn.1, Path.isAbsolute_of_slashless hn.1]
    simp [Path.firstComponent?, Path.innerComponent?, hn.2.1, hn.2.2.1, hn.2.2.2]
  unfold entryName
  rw [bareName_of_slashless hn.1, trimmed, hcomponents]

/-- A target without slashes names an entry without blanks around its name. -/
theorem trim_entryName (slashless : '/' ∉ t.name.toList) (h : entryName t = .ok entry) :
    Text.trim entry = entry := by
  unfold entryName at h
  rw [bareName_of_slashless slashless] at h
  split at h
  · next hcomponents =>
    cases h
    obtain ⟨isName, hpiece⟩ := Path.name_mem_components (p := ⟨Text.trim t.name⟩) (n := entry)
      (by rw [hcomponents]; exact List.mem_cons_self)
    rw [Path.pieces_of_slashless (Project.trim_slashless slashless), List.mem_singleton] at hpiece
    have hfilled : Text.trimChars t.name.toList ≠ [] := fun hnil =>
      isName.2.1 (by rw [hpiece, Text.trim, hnil])
    rw [hpiece, Text.trim, Text.trim, String.toList_ofList, (Text.solid_trimChars hfilled).trimChars]
  · cases h

/-- A name means the entry of that name, unless the engine keeps it. -/
theorem ownEntry_of_isName {site : Site} {a : Agent} {dir : Location} {n : String}
    (named : Location.Named (dir ++ [n])) (trimmed : Text.trim n = n)
    (scope : a.scope = .folder (pathOf dir))
    (undocumented : project.isDoc (pathOf (dir ++ [n])) = false)
    (unclaimed : site.isScratch (pathOf (dir ++ [n])) = false) (isFolder : Bool) :
    ownEntry project site a ⟨n, isFolder⟩ = .ok (n, pathOf (dir ++ [n])) := by
  have hdir : Location.Named dir := named.left
  have hpath : Project.resolve (pathOf dir) n = pathOf (dir ++ [n]) := by
    rw [Project.resolve_pathOf hdir named.last.1, trimmed, Path.normalize_pathOf named]
  have hin : (pathOf dir).contains (pathOf (dir ++ [n])) = true :=
    (Path.contains_pathOf hdir named).mpr (List.prefix_append dir [n])
  have hother : (pathOf (dir ++ [n])).same (pathOf dir).normalize = false := by
    rw [Path.normalize_pathOf hdir, ← Bool.not_eq_true, Path.same_pathOf named hdir]
    simp
  unfold ownEntry
  simp only [scope, Scope.folder?, entryName_of_isName named.last trimmed isFolder, bind, Except.bind,
    hpath, hin, hother, undocumented, unclaimed]
  rfl

/-! ### A folder without notes -/

/-- **A folder is left without notes:** where a name fits and that of the notes does not, making the
folder is refused, and the folder is there. -/
theorem half_made {dir : Location} {n : String} (tree : d.world.site.files.IsTree)
    (clear : d.world.site.files.Clear dir) (named : Location.Named (dir ++ [n]))
    (trimmed : Text.trim n = n) (scope : d.agent.scope = .folder (pathOf dir))
    (undocumented : project.isDoc (pathOf (dir ++ [n])) = false)
    (unclaimed : d.world.site.isScratch (pathOf (dir ++ [n])) = false)
    (found : d.world.site.files.find? dir = some .folder)
    (absent : d.world.site.files.find? (dir ++ [n]) = none)
    (free : d.agent.children.get? n = none) (fits : Location.Fits (dir ++ [n]))
    (unfit : ¬ Project.NotesFit (pathOf (dir ++ [n]))) :
    Refused project (.create ⟨n, true⟩ none) d ∧
      (creation project ⟨n, true⟩ none d).1 = [] ∧
      (creation project ⟨n, true⟩ none d).2.world.site.files.find? (dir ++ [n]) = some .folder ∧
      ¬ MadeWhole project ⟨n, true⟩ none d := by
  have hclear : d.world.site.files.Clear (dir ++ [n]) := clear.concat (by rw [absent]; simp)
  have hwalk : d.world.site.files.walk .entered (pathOf (dir ++ [n])) = .ok (dir ++ [n]) := by
    refine (walk_pathOf_iff named hclear).mpr ⟨fits, fun part hp hne => ?_⟩
    rcases List.prefix_concat_iff.mp hp with rfl | hp
    · exact absurd rfl hne
    · by_cases hpart : part = dir
      · rw [hpart, found]
      · exact tree.folders (by rw [found]; simp) hp hpart
  have hmake : d.world.site.files.makeFolder (pathOf (dir ++ [n])) =
      .ok (d.world.site.files.insert (dir ++ [n]) .folder) := by
    unfold FileSystem.makeFolder FileSystem.make
    rw [hwalk]
    simp only [bind, Except.bind, absent]
    rfl
  have begins : Begins project ⟨n, true⟩ none d n (pathOf (dir ++ [n]))
      (d.world.site.files.insert (dir ++ [n]) .folder) :=
    ⟨ownEntry_of_isName named trimmed scope undocumented unclaimed true, exists?_eq_false fun r hr => by
      rw [(walk_pathOf named hclear hr).1, absent], free, fun _ => rfl, hmake⟩
  have hcreating := create_creating project ⟨n, true⟩ none d
  generalize hrun : ((create project ⟨n, true⟩ none).run d : Except AgentError Step × Desk) = out
    at hcreating
  have hperform : (perform project (.create ⟨n, true⟩ none)).run d = out := hrun
  cases hcreating with
  | refused e never => exact absurd begins (never _ _ _)
  | @noteless entry path made e begins' isFolder notes =>
    obtain rfl := begins.unique begins'
    have hmade : made = d.world.site.files.insert (dir ++ [n]) .folder :=
      Except.ok.inj (begins'.first.symm.trans begins.first)
    refine ⟨⟨_, by rw [hperform]⟩, ?_, ?_, not_madeWhole_of_noteless isFolder begins' hperform⟩
    all_goals
      unfold creation
      rw [interpret_of_run hperform]
    · rfl
    · change made.find? (dir ++ [n]) = some .folder
      rw [hmade, find?_insert_self _ _ (by simp)]
  | @done entry path made files note begins' second =>
    obtain rfl := begins.unique begins'
    have isFolder : (⟨n, true⟩ : Target).isFolder = true := rfl
    rw [if_pos isFolder] at second
    exact absurd ((begins'.notes_iff isFolder tree).mpr ⟨files, second⟩) unfit

/-- An empty folder. -/
def lane : FileSystem := ⟨[(["p"], .folder)]⟩

/-- Its manager. -/
def laneDesk : Desk where
  agent := .fresh ⟨1⟩ .manager "." (.folder (pathOf ["p"])) none 0
  world := .start lane [] [] 2

/-- A name of 250 bytes, with which that of the notes is longer than names may be. -/
def laneName : String := String.ofList (List.replicate 250 'a')

theorem laneName_toList : laneName.toList = List.replicate 250 'a' := String.toList_ofList

theorem laneName_size : laneName.utf8ByteSize = 250 := by decide +kernel

theorem laneName_length : laneName.length = 250 := by
  rw [← String.length_toList, laneName_toList, List.length_replicate]

theorem mem_laneName {c : Char} (h : c ∈ laneName.toList) : c = 'a' := by
  rw [laneName_toList] at h
  exact (List.mem_replicate.mp h).2

theorem isName_laneName : IsName laneName :=
  Project.isName_of_length (fun h => by cases mem_laneName h) (by rw [laneName_length]; decide)

theorem laneName_ne {s : String} (h : s.length ≠ 250) : laneName ≠ s := fun heq =>
  h (heq ▸ laneName_length)

theorem laneName_trimmed : Text.trim laneName = laneName := by
  have solid : Text.Solid laneName.toList := by
    rw [laneName_toList]
    exact ⟨⟨'a', List.replicate 249 'a', rfl, by decide⟩,
      ⟨List.replicate 249 'a', 'a', List.replicate_succ' .., by decide⟩⟩
  rw [Text.trim, solid.trimChars, String.ofList_toList]

theorem lane_named : Location.Named (["p"] ++ [laneName]) :=
  Location.Named.concat (show Location.Named ["p"] by decide) isName_laneName

/-- The engine keeps nothing of that name. -/
theorem lane_undocumented : cellarProject.isDoc (pathOf (["p"] ++ [laneName])) = false := by
  have hroot : Location.Named ["p"] := by decide
  have hnotes := hroot.concat (Project.isName_docName hroot)
  have hdocumentation := hroot.concat Project.isName_documentation
  have hdoc : cellarProject.documentation = pathOf (["p"] ++ ["DOCUMENTATION.md"]) :=
    Path.joinName_pathOf hroot (by decide)
  have hlast : ∀ {s : String}, s.length ≠ 250 → ["p"] ++ [laneName] ≠ ["p"] ++ [s] := by
    intro s h heq
    exact laneName_ne h (List.singleton_inj.mp (List.append_cancel_left heq))
  unfold Project.isDoc
  rw [Path.normalize_pathOf lane_named, hdoc, Path.parent?_pathOf lane_named]
  simp only [Project.docPath_pathOf hroot]
  rw [Bool.or_eq_false_iff, ← Bool.not_eq_true, ← Bool.not_eq_true,
    Path.same_pathOf lane_named hdocumentation, Path.same_pathOf hnotes lane_named]
  exact ⟨hlast (by decide), fun h => hlast (by decide) h.symm⟩

theorem lane_text : (pathOf (["p"] ++ [laneName])).text = "/p/" ++ laneName :=
  String.toList_injective (by simp [pathOf])

theorem lane_fits : Location.Fits (["p"] ++ [laneName]) where
  clean := by
    rw [lane_text, String.toList_append, List.contains_append, Bool.or_eq_false_iff]
    refine ⟨by decide, ?_⟩
    rw [← Bool.not_eq_true, List.contains_iff_mem]
    intro h
    cases mem_laneName h
  short := by
    rw [lane_text, String.utf8ByteSize_append, laneName_size]
    decide
  names n hn := by
    rcases List.mem_append.mp hn with h | h
    · rw [List.mem_singleton.mp h]
      decide
    · rw [List.mem_singleton.mp h, laneName_size]
      decide

theorem lane_unfit : ¬ Project.NotesFit (pathOf (["p"] ++ [laneName])) := by
  intro fit
  have hname : Project.notesName (pathOf (["p"] ++ [laneName])) = laneName ++ "_README.md" := by
    rw [Project.notesName, Project.folderStem, Path.fileName?_pathOf lane_named]
    rfl
  have hsize := fit.name
  rw [hname, String.utf8ByteSize_append, laneName_size] at hsize
  revert hsize
  decide

/-- **Making the folder is refused, and the folder is there.** -/
theorem lane_half_made :
    Refused cellarProject (.create ⟨laneName, true⟩ none) laneDesk ∧
    (creation cellarProject ⟨laneName, true⟩ none laneDesk).1 = [] ∧
    lane.find? ["p", laneName] = none ∧
    (creation cellarProject ⟨laneName, true⟩ none laneDesk).2.world.site.files.find?
      ["p", laneName] = some .folder ∧
    ¬ MadeWhole cellarProject ⟨laneName, true⟩ none laneDesk := by
  have tree : lane.IsTree := isTree_of_forall (by simp [lane, find?])
  have linkless : lane.Clear ["p"] := fun part _ t => ne_link_of_forall (by simp [lane]) part t
  have absent : lane.find? (["p"] ++ [laneName]) = none := by simp [lane, find?]
  obtain ⟨refused, effects, there, notWhole⟩ := half_made (d := laneDesk) tree linkless
    lane_named laneName_trimmed rfl lane_undocumented rfl rfl absent rfl lane_fits lane_unfit
  exact ⟨refused, effects, absent, there, notWhole⟩

end Arbor.Turn
