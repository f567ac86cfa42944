import Arbor.Config
import Arbor.FileSystem

/-! # The project

A project is a folder with its settings. It fixes the names of the files that the engine keeps
(notes of a folder, documentation, scratch files), which entries agents see, and how paths are
shown. What changes over time, the files and the set of scratch files in use, is a `Site`. -/

namespace Arbor

/-- What changes while agents work: the files, and the scratch files in use as normal paths. -/
structure Site where
  files : FileSystem
  scratch : List Path

/-- The project: its root as an absolute normal path, and its settings. -/
structure Project where
  root : Path
  config : Config
  deriving DecidableEq

/-- Why a project cannot be opened. -/
inductive OpenError where
  | os (error : OsError)
  | notFolder (path : Path)
  deriving DecidableEq, Repr

/-- The wording of an error. -/
def OpenError.message : OpenError → String
  | .os e => e.message
  | .notFolder p => p.text ++ " is not a directory"

namespace Site

/-- The path is a scratch file in use. -/
def isScratch (site : Site) (p : Path) : Bool := site.scratch.contains p.normalize

/-- Records a scratch file. -/
def claim (site : Site) (p : Path) : Site :=
  if site.isScratch p then site else { site with scratch := site.scratch ++ [p.normalize] }

/-- Forgets a scratch file. -/
def forget (site : Site) (p : Path) : Site :=
  { site with scratch := site.scratch.filter fun q => q != p.normalize }

end Site

namespace Project

/-- Opens the folder at a path. -/
def openAt (fs : FileSystem) (p : Path) (config : Config) : Except OpenError Project :=
  match fs.status true p with
  | .error e => .error (.os e)
  | .ok (loc, .folder) => .ok { root := (FileSystem.pathOf loc).normalize, config := config }
  | .ok (loc, _) => .error (.notFolder (FileSystem.pathOf loc))

/-- A name as seen from a folder, in normal form; an absolute one stands alone. -/
def resolve (base : Path) (name : String) : Path := (base.join ⟨Text.trim name⟩).normalize

/-- The path lies in the project. -/
def holds (project : Project) (p : Path) : Bool := project.root.contains p

/-- **How a path is shown:** relative to the root, `.` for the root itself; a path outside the
project is shown as it is written. -/
def displayName (project : Project) (p : Path) : String :=
  if project.holds p then
    let rest := p.normalComponents.drop project.root.normalComponents.length
    if rest.isEmpty then "." else String.intercalate "/" (rest.map Component.text)
  else p.text

/-- The name that files of a folder are named after. -/
def folderStem (dir : Path) : String := dir.fileName?.getD "project"

/-- The notes of a folder. -/
def docPath (dir : Path) : Path := dir.joinName (folderStem dir ++ "_README.md")

/-- The documentation of the project. -/
def documentation (project : Project) : Path := project.root.joinName "DOCUMENTATION.md"

/-- Makes the notes of a folder, empty, where there are none. -/
def ensureDoc (fs : FileSystem) (dir : Path) : Except OsError FileSystem :=
  if fs.exists? (docPath dir) then .ok fs else fs.writeText (docPath dir) ""

/-- The path is the notes of its own folder, or the documentation. -/
def isDoc (project : Project) (p : Path) : Bool :=
  p.normalize.same project.documentation ||
    match p.parent? with
    | some dir => (docPath dir).same p
    | none => false

/-- Names of folders that agents never see. -/
def ignoredNames : List String :=
  [".git", "target", "node_modules", "__pycache__", ".venv", "venv"]

/-- Hidden entries, and folders of builds and tools. -/
def isIgnored (p : Path) : Bool :=
  match p.fileName? with
  | some name => name.toList.head? == some '.' || ignoredNames.contains name
  | none => false

/-- The first of numbered names that is free; one more number than there are entries is enough. -/
def firstFree (fs : FileSystem) (start : Nat) (candidate : Nat → Path) (free : Path → Bool) :
    Path :=
  (((List.range' start (fs.entries.length + 1)).map candidate).find? free).getD (candidate start)

/-- **The next free scratch file in a folder.** -/
def nextScratch (project : Project) (site : Site) (dir : Path) : Path :=
  firstFree site.files 1
    (fun n => dir.joinName (folderStem dir ++ "_scratch_" ++ Nat.repr n ++ "." ++
      project.config.scratchExtension))
    fun p => !site.files.exists? p

/-- The scratch file of a coder: beside its file, absent or already in use as one. -/
def coderScratch (project : Project) (site : Site) (file : Path) : Path :=
  let stem := file.fileStem?.getD "file"
  let ext := file.extension?.getD project.config.scratchExtension
  let dir := file.parent?.getD project.root
  let free := fun p => !site.files.exists? p || site.isScratch p
  let first := dir.joinName (stem ++ "_scratch." ++ ext)
  if free first then first
  else
    firstFree site.files 2
      (fun n => dir.joinName (stem ++ "_scratch_" ++ Nat.repr n ++ "." ++ ext)) free

/-! ### What agents see -/

/-- An entry that agents see, met on a walk. -/
structure Seen where
  depth : Nat
  path : Path
  name : String
  entry : Entry

/-- Agents see the path: it is neither ignored nor scratch. -/
def isSeen (site : Site) (p : Path) : Bool := !isIgnored p && !site.isScratch p

/-- The walk goes on into the entry: it is a folder, and its path is not too long to be opened. -/
def isEntered (p : Path) (entry : Entry) : Bool :=
  entry.isFolder && p.text.utf8ByteSize ≤ FileSystem.maxPath

/-- The entries below a folder that agents see, by name, each folder before what it holds, at most
`levels` deep. -/
def seenBelow (site : Site) : Nat → Nat → Path → Location → List Seen
  | 0, _, _, _ => []
  | levels + 1, depth, path, loc =>
    (site.files.children loc).flatMap fun child =>
      let p := path.joinName child.1
      if isSeen site p then
        { depth := depth, path := p, name := child.1, entry := child.2 } ::
          (if isEntered p child.2 then seenBelow site levels (depth + 1) p (loc ++ [child.1]) else [])
      else []

/-- **The entries that agents see below a path,** at most `levels` deep. No path has more components
than there are entries, so deeper levels are empty. -/
def seen (site : Site) (levels : Nat) (base : Path) : List Seen :=
  match site.files.status true base with
  | .ok (loc, .folder) => seenBelow site (min levels (site.files.entries.length + 1)) 1 base loc
  | _ => []

/-- One line of a listing. -/
def Seen.line (s : Seen) : String :=
  String.join (List.replicate s.depth "  ") ++ s.name ++
    (if s.entry.isFolder then "/" else "") ++ "\n"

/-- **The listing of a folder,** at most `levels` deep and at least one. -/
def listing (project : Project) (site : Site) (base : Path) (levels : Nat) : String :=
  project.displayName base ++ "/\n" ++
    String.join ((seen site (max levels 1) base).map Seen.line)

end Project

end Arbor
