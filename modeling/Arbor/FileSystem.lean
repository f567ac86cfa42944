import Arbor.Path

/-! # The file system as a value

A file system is a finite table from locations to entries; a location is the list of names from the
root down. Entries are files, folders and symbolic links. Every operation takes a path as it is
written, walks it step by step through links, and either gives a new table or fails with
one of the errors that an operating system reports.

* `find?` is the view: every operation is described by what it does to it.
* `walk` finds the location of a path. All steps but the last have to lead to folders; the last one
  may be absent. A link at the end is followed or not, as the operation asks.
* Writing follows a link at the end, also one whose target is absent; making a folder and removing
  do not. -/

namespace Arbor

/-- A place in the file system: the names from the root down. -/
abbrev Location := List String

/-- What stands at a location. -/
inductive Entry where
  | file (content : ByteArray)
  | folder
  | link (target : String)

/-- The entry is a folder. -/
def Entry.isFolder : Entry → Bool
  | .folder => true
  | _ => false

/-- The table of entries. The root is a folder and is not listed. -/
structure FileSystem where
  entries : List (Location × Entry)

/-- The errors of file operations. -/
inductive OsError where
  | notFound
  | exists
  | notFolder
  | isFolder
  | nameTooLong
  | tooManyLinks
  /-- A name with the character NUL in it. -/
  | badName
  deriving DecidableEq, Repr

namespace OsError

/-- What went wrong. -/
def reason : OsError → String
  | .notFound => "No such file or directory"
  | .exists => "File exists"
  | .notFolder => "Not a directory"
  | .isFolder => "Is a directory"
  | .nameTooLong => "File name too long"
  | .tooManyLinks => "Too many levels of symbolic links"
  | .badName => "file name contained an unexpected NUL byte"

/-- The number of an error that the operating system reports. -/
def number? : OsError → Option Nat
  | .notFound => some 2
  | .exists => some 17
  | .notFolder => some 20
  | .isFolder => some 21
  | .nameTooLong => some 36
  | .tooManyLinks => some 40
  | .badName => none

/-- The wording of an error. -/
def message (e : OsError) : String :=
  match e.number? with
  | some n => e.reason ++ " (os error " ++ Nat.repr n ++ ")"
  | none => e.reason

end OsError

namespace FileSystem

/-- **The entry at a location.** -/
def find? (fs : FileSystem) (loc : Location) : Option Entry :=
  if loc.isEmpty then some .folder else fs.entries.lookup loc

/-- The table with an entry put at a location. -/
def insert (fs : FileSystem) (loc : Location) (entry : Entry) : FileSystem :=
  ⟨(loc, entry) :: fs.entries.filter fun e => e.1 != loc⟩

/-- The table without a location and everything below it. -/
def erase (fs : FileSystem) (loc : Location) : FileSystem :=
  ⟨fs.entries.filter fun e => !loc.isPrefixOf e.1⟩

/-- The longest name of an entry, in bytes. -/
def maxName : Nat := 255

/-- The longest path, in bytes. -/
def maxPath : Nat := 4095

/-- How many links a path may lead through. -/
def maxLinks : Nat := 40

/-- What is done with a link at the end of a path. -/
inductive Ending where
  /-- It is followed. -/
  | followed
  /-- It is kept, unless a slash follows it. -/
  | kept
  /-- It is followed to where a file is written. No slash may come behind the name of a file. -/
  | written
  /-- It is kept. -/
  | entered
  deriving DecidableEq, Repr

/-- A link at the end of a path is followed. -/
def Ending.follows (e : Ending) (slash : Bool) : Bool :=
  match e with
  | .followed => true
  | .kept => slash
  | .written => true
  | .entered => false

/-- The most steps that a link leads through. -/
def longestLink (fs : FileSystem) : Nat :=
  fs.entries.foldr (fun e most => match e.2 with
    | .link target => max (Path.steps ⟨target⟩).length most
    | _ => most) 0

theorem steps_le_longestLink {fs : FileSystem} {loc : Location} {target : String}
    (h : fs.find? loc = some (.link target)) :
    (Path.steps ⟨target⟩).length ≤ fs.longestLink := by
  unfold find? at h
  split at h
  · cases h
  · unfold longestLink
    generalize fs.entries = entries at h
    induction entries with
    | nil => cases h
    | cons e rest ih =>
      obtain ⟨place, entry⟩ := e
      rw [List.lookup_cons] at h
      rw [List.foldr_cons]
      split at h
      · cases h
        exact Nat.le_max_left _ _
      · refine Nat.le_trans (ih h) ?_
        split
        · exact Nat.le_max_right _ _
        · exact Nat.le_refl _

/-- The location that steps lead to from a folder; `slash` says that one comes behind the last of
them. -/
def walkFrom (fs : FileSystem) (ending : Ending) (links : Nat) (loc : Location) (slash : Bool)
    (steps : List String) : Except OsError Location :=
  match steps with
  | [] => .ok loc
  | "." :: rest => walkFrom fs ending links loc slash rest
  | ".." :: rest => walkFrom fs ending links loc.dropLast slash rest
  | n :: rest =>
    if rest.isEmpty && slash && ending = .written then .error .isFolder
    else if maxName < n.utf8ByteSize then .error .nameTooLong
    else
      let next := loc ++ [n]
      match _h : fs.find? next with
      | some .folder => walkFrom fs ending links next slash rest
      | some (.file _) =>
        if rest.isEmpty && !(slash && ending != .entered) then .ok next else .error .notFolder
      | none => if rest.isEmpty then .ok next else .error .notFound
      | some (.link target) =>
        if rest.isEmpty && !ending.follows slash then .ok next
        else
          match links with
          | 0 => .error .tooManyLinks
          | links + 1 =>
            let q : Path := ⟨target⟩
            walkFrom fs ending links (if q.isAbsolute then [] else loc)
              (slash || (rest.isEmpty && q.asksFolder)) (q.steps ++ rest)
  -- whatever link is followed, it leads through no more steps than the longest
  termination_by links * (fs.longestLink + 1) + steps.length
  decreasing_by
    · simp
    · simp
    · simp
    · have hle := steps_le_longestLink _h
      simp only [List.length_append, List.length_cons, Nat.succ_mul]
      omega

/-- **The location of a path.** All steps but the last have to lead to folders. A slash at the end
asks for a folder too. -/
def walk (fs : FileSystem) (ending : Ending) (p : Path) : Except OsError Location :=
  if p.text.toList.contains (Char.ofNat 0) then .error .badName
  else if p.text.isEmpty then .error .notFound
  else if maxPath < p.text.utf8ByteSize then .error .nameTooLong
  else walkFrom fs ending maxLinks [] p.asksFolder p.steps

/-- The location and the entry of a path. -/
def status (fs : FileSystem) (follow : Bool) (p : Path) : Except OsError (Location × Entry) := do
  let loc ← fs.walk (if follow then .followed else .kept) p
  match fs.find? loc with
  | some entry => return (loc, entry)
  | none => throw .notFound

/-- Something stands at the path, links followed. -/
def exists? (fs : FileSystem) (p : Path) : Bool := (fs.status true p).toOption.isSome

/-- A folder stands at the path, links followed. -/
def isFolder (fs : FileSystem) (p : Path) : Bool :=
  match fs.status true p with
  | .ok (_, .folder) => true
  | _ => false

/-- A file stands at the path, links followed. -/
def isFile (fs : FileSystem) (p : Path) : Bool :=
  match fs.status true p with
  | .ok (_, .file _) => true
  | _ => false

/-- The content of a file. -/
def read (fs : FileSystem) (p : Path) : Except OsError ByteArray := do
  match ← fs.status true p with
  | (_, .file content) => return content
  | (_, .folder) => throw .isFolder
  | (_, .link _) => throw .tooManyLinks

/-- The content of a file that is text. -/
def readText? (fs : FileSystem) (p : Path) : Option String :=
  match fs.read p with
  | .ok content => String.fromUTF8? content
  | .error _ => none

/-- Writes a file, new or not. -/
def write (fs : FileSystem) (p : Path) (content : ByteArray) : Except OsError FileSystem := do
  let loc ← fs.walk .written p
  match fs.find? loc with
  | some .folder => throw .isFolder
  | _ => return fs.insert loc (.file content)

/-- Writes a text. -/
def writeText (fs : FileSystem) (p : Path) (text : String) : Except OsError FileSystem :=
  fs.write p text.toUTF8

/-- Makes an entry where none is. -/
def make (fs : FileSystem) (p : Path) (entry : Entry) : Except OsError FileSystem := do
  let loc ← fs.walk .entered p
  match fs.find? loc with
  | some _ => throw .exists
  | none => return fs.insert loc entry

/-- Makes a folder. -/
def makeFolder (fs : FileSystem) (p : Path) : Except OsError FileSystem := fs.make p .folder

/-- Removes a file or a link. -/
def removeFile (fs : FileSystem) (p : Path) : Except OsError FileSystem := do
  let loc ← fs.walk .entered p
  match fs.find? loc with
  | none => throw .notFound
  | some .folder => throw .isFolder
  | some _ => if p.asksFolder then throw .notFolder else return fs.erase loc

/-- Removes a folder with everything in it; of a link, only the link. -/
def removeFolder (fs : FileSystem) (p : Path) : Except OsError FileSystem := do
  match ← fs.status false p with
  | (_, .file _) => throw .notFolder
  | (loc, _) => return fs.erase loc

/-- The path of a location. -/
def pathOf (loc : Location) : Path := ⟨"/" ++ String.intercalate "/" loc⟩

/-- The path without links to an entry that is there. -/
def canonical (fs : FileSystem) (p : Path) : Except OsError Path := do
  return pathOf (← fs.status true p).1

/-- The name of an entry directly inside a folder. -/
def nameIn? (folder loc : Location) : Option String :=
  if folder.isPrefixOf loc then
    match loc.drop folder.length with
    | [name] => some name
    | _ => none
  else none

/-- **The entries directly inside a folder,** by name. -/
def children (fs : FileSystem) (folder : Location) : List (String × Entry) :=
  (fs.entries.filterMap fun e => (nameIn? folder e.1).map fun n => (n, e.2)).mergeSort
    fun a b => !decide (b.1 < a.1)

/-- Makes every folder on the way to a location. -/
def makeParents (fs : FileSystem) (p : Path) : FileSystem :=
  match p.parent? with
  | none => fs
  | some dir =>
    let steps := (List.range dir.components.length).map fun n =>
      Path.ofComponents (dir.components.take (n + 1))
    steps.foldl (fun fs q => (fs.makeFolder q).toOption.getD fs) fs

/-- Puts an entry at a path, with the folders on the way; what cannot be put is left out. -/
def plant (fs : FileSystem) (p : Path) (entry : Entry) : FileSystem :=
  let fs := fs.makeParents p
  match entry with
  | .file content => (fs.write p content).toOption.getD fs
  | entry => (fs.make p entry).toOption.getD fs

/-- Removes whatever stands at a path, if anything does. -/
def removeAny (fs : FileSystem) (p : Path) : FileSystem :=
  match fs.status false p with
  | .ok (loc, _) => fs.erase loc
  | .error _ => fs

end FileSystem

end Arbor
