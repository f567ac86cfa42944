import Arbor.Shell.Pattern
import Arbor.Shell.Program.Rights

/-! # Listing files -/

namespace Arbor.Shell.Program

/-- An entry as it is listed: its name, what it is and where it is. -/
structure Listed where
  name : String
  entry : Entry
  location : Location

/-- How much an entry is said to hold. -/
def sizeOf : Entry → Nat
  | .file content => content.size
  | .folder => 4096
  | .link target => target.utf8ByteSize

/-- The blocks of an entry, in units of 1024 bytes. -/
def blocksOf : Entry → Nat
  | .link _ => 0
  | e => (sizeOf e + 4095) / 4096 * 4

/-- The options of `ls`. -/
def lsUsage : Usage where
  program := "ls"
  code := 2
  letters := "abcdfghiklmnopqrstuvw:xABCDFGHI:LNQRST:UXZ1"
  names := [("all", 'a'), ("almost-all", 'A'), ("escape", 'b'), ("ignore-backups", 'B'),
    ("color=?", 'Y'), ("directory", 'd'), ("dired", 'D'), ("classify=?", 'F'), ("no-group", 'G'),
    ("human-readable", 'h'), ("hide=", 'I'), ("ignore=", 'I'), ("inode", 'i'), ("dereference", 'L'),
    ("literal", 'N'), ("quote-name", 'Q'), ("reverse", 'r'), ("recursive", 'R'), ("size", 's'),
    ("sort=", 'K'), ("width=", 'w'), ("group-directories-first", 'J'), ("full-time", 'l')]

/-- Texts in their order. -/
def inOrder (names : List String) : List String := names.mergeSort fun a b => !decide (b < a)

/-- The name fits a pattern that is written out. -/
def fitsPattern (pattern name : String) : Bool :=
  Pattern.fits (pattern.toList.map fun c => (c, true)) name

/-- Entries in the order that is asked for. -/
def sortListed (a : Arguments) (entries : List Listed) : List Listed :=
  let byName := if a.has 'U' || a.has 'f' then entries
    else entries.mergeSort fun x y => !decide (y.name < x.name)
  let bySize := if a.has 'S' || a.value? 'K' = some "size" then
      byName.mergeSort fun x y => sizeOf y.entry ≤ sizeOf x.entry
    else byName
  let turned := if a.has 'r' then bySize.reverse else bySize
  if a.has 'J' then
    turned.filter (fun e => e.entry.isFolder) ++ turned.filter fun e => !e.entry.isFolder
  else turned

/-- The entries of a folder that a listing shows. -/
def shownEntries (a : Arguments) (fs : FileSystem) (loc : Location) : List Listed :=
  let inside := (fs.children loc).map fun e => (⟨e.1, e.2, loc ++ [e.1]⟩ : Listed)
  let hidden := fun (e : Listed) => e.name.startsWith "."
  let dots : List Listed := [⟨".", .folder, loc⟩, ⟨"..", .folder, loc.dropLast⟩]
  let all := if a.has 'a' || a.has 'f' then dots ++ inside
    else if a.has 'A' then inside
    else inside.filter fun e => !hidden e
  let kept := all.filter fun e => !(a.allOf 'I').any fun p => fitsPattern p e.name
  let kept := if a.has 'B' then kept.filter fun e => !e.name.endsWith "~" else kept
  sortListed a kept

/-- A name with the sign of what it names, if asked. -/
def marked (a : Arguments) (s : State) (e : Listed) : String :=
  let name := if a.has 'Q' then "\"" ++ e.name ++ "\"" else e.name
  name ++ match e.entry with
    | .folder => if a.has 'p' || a.has 'F' then "/" else ""
    | .link _ => if a.has 'F' && !a.has 'l' then "@" else ""
    | .file _ => if a.has 'F' && s.isRunnable e.location then "*" else ""

/-- A text in a column. -/
def padLeft (width : Nat) (text : String) : String :=
  String.ofList (List.replicate (width - text.length) ' ') ++ text

/-- A text in a column, from its left. -/
def padRight (width : Nat) (text : String) : String :=
  text ++ String.ofList (List.replicate (width - text.length) ' ')

/-- The number of names of an entry. -/
def linksOf (fs : FileSystem) (e : Listed) : Nat :=
  match e.entry with
  | .folder => 2 + ((fs.children e.location).filter fun c => c.2.isFolder).length
  | _ => 1

/-- The last change of a file as it is listed. -/
def changeText : String := "Jan  1 00:00"

/-- Entries with their rights, owners and sizes. -/
def longLines (a : Arguments) (s : State) (entries : List Listed) : String :=
  let width := fun (f : Listed → Nat) => (entries.map fun e => (Nat.repr (f e)).length).foldl max 0
  let links := width (linksOf s.files)
  let sizes := width fun e => sizeOf e.entry
  let owner := if a.has 'n' then "0" else "root"
  String.join (entries.map fun e =>
    let target := match e.entry with
      | .link t => " -> " ++ t
      | _ => ""
    Rights.full e.entry (s.mode e.location) ++ " " ++
      padLeft links (Nat.repr (linksOf s.files e)) ++ " " ++
      (if a.has 'g' then "" else owner ++ " ") ++
      (if a.has 'o' || a.has 'G' then "" else owner ++ " ") ++
      padLeft sizes (Nat.repr (sizeOf e.entry)) ++ " " ++ changeText ++ " " ++ marked a s e ++
        target ++
      "\n")

/-! ### Columns -/

/-- Blanks and tabs from a column to another. -/
def gap (start stop : Nat) : List Char :=
  let rec go : Nat → Nat → List Char
    | 0, _ => []
    | fuel + 1, column =>
      if stop ≤ column then []
      else if (column + 1) / 8 < stop / 8 then
        '\t' :: go fuel (column / 8 * 8 + 8)
      else ' ' :: go fuel (column + 1)
  go (stop + 1 - start) start

/-- Names in rows of cells, each with the width of its column. -/
def rowText (widths : List Nat) (cells : List String) : String :=
  let rec go : Nat → List Nat → List String → List Char
    | _, _, [] => []
    | _, _, [c] => c.toList
    | start, w :: ws, c :: cs =>
      c.toList ++ gap (start + c.length) (start + w) ++ go (start + w) ws cs
    | _, [], _ => []
  String.ofList (go 0 widths cells)

/-- The cells of a table with a number of columns, filled down or across. -/
def tableRows (across : Bool) (columns : Nat) (names : List String) : List (List String) :=
  let rows := (names.length + columns - 1) / columns
  (List.range rows).map fun r =>
    (List.range columns).filterMap fun c => names[if across then r * columns + c else c * rows + r]?

/-- The widths of the columns of a table, with two blanks between them. -/
def tableWidths (rows : List (List String)) : List Nat :=
  let count := (rows.map List.length).foldl max 0
  (List.range count).map fun i =>
    (rows.map fun r => ((r[i]?).map String.length).getD 0).foldl max 0 +
      if i + 1 < count then 2 else 0

/-- Names in as many columns as fit a width. -/
def inColumns (across : Bool) (width : Nat) (names : List String) : String :=
  let fits := fun (n : Nat) =>
    let rows := tableRows across n names
    ((tableWidths rows).foldl (· + ·) 0) ≤ width - 1 &&
      (across || (rows.headD []).length = n)
  let columns := (((List.range names.length).map fun i => names.length - i).find? fits).getD 1
  let rows := tableRows across columns names
  String.join (rows.map fun r => rowText (tableWidths rows) r ++ "\n")

/-- Entries as they are listed. -/
def listLines (a : Arguments) (s : State) (entries : List Listed) : String :=
  let names := entries.map (marked a s)
  let layout := (a.letters.filter "lCxm1".toList.contains).getLast?
  let width := ((a.value? 'w').bind count?).getD 80
  if a.has 'l' || a.has 'n' || a.has 'o' || a.has 'g' then longLines a s entries
  else
    match layout with
    | some 'm' => if names.isEmpty then "" else String.intercalate ", " names ++ "\n"
    | some 'C' => inColumns false width names
    | some 'x' => inColumns true width names
    | _ => String.join ((names.zip entries).map fun e =>
        (if a.has 's' then Nat.repr (blocksOf e.2.entry) ++ " " else "") ++ e.1 ++ "\n")

/-! ### The program -/

/-- The titles and locations of the folders below one, each before what it holds. -/
def foldersBelow (a : Arguments) (fs : FileSystem) :
    Nat → String → Location → List (String × Location)
  | 0, _, _ => []
  | levels + 1, title, loc =>
    (title, loc) :: (shownEntries a fs loc).flatMap fun e =>
      if e.entry.isFolder && e.name != "." && e.name != ".." then
        foldersBelow a fs levels (if title.endsWith "/" then title ++ e.name
          else title ++ "/" ++ e.name)
          e.location
      else []

/-- What an argument of `ls` names: a link is followed to a folder, though not in a long listing. -/
def listedStatus (a : Arguments) (fs : FileSystem) (p : Path) : Except OsError (Location × Entry) :=
  let kept := a.has 'd' || a.has 'l' || a.has 'F'
  match fs.status true p, fs.status false p with
  | .ok (loc, .folder), .ok own => if kept && !a.has 'L' then .ok own else .ok (loc, .folder)
  | .error _, .ok own => if a.has 'L' then fs.status true p else .ok own
  | _, own => if a.has 'L' then fs.status true p else own

/-- Lists files and folders: first what is missing, then files, then what folders hold. -/
def ls : Program := lsUsage.checked fun a => do
  let names := if a.words.isEmpty then ["."] else a.words
  let s ← get
  let mut found : List Listed := []
  for name in inOrder names do
    match listedStatus a s.files (← Sh.locate name) with
    | .error e => fail 2 ("ls: cannot access " ++ Names.quoted name ++ ": " ++ e.reason)
    | .ok (loc, entry) => found := found ++ [⟨name, entry, loc⟩]
  let sorted := sortListed a found
  let files := sorted.filter fun e => !e.entry.isFolder || a.has 'd'
  let roots := sorted.filter fun e => e.entry.isFolder && !a.has 'd'
  let folders := roots.flatMap fun e =>
    if a.has 'R' then foldersBelow a s.files (s.files.entries.length + 1) e.name e.location
    else [(e.name, e.location)]
  if !files.isEmpty then Sh.say (listLines a s files)
  for ((name, loc), i) in folders.zipIdx do
    if 1 < names.length || a.has 'R' then
      Sh.say ((if i = 0 && files.isEmpty then "" else "\n") ++ name ++ ":\n")
    let entries := shownEntries a s.files loc
    if a.has 'l' || a.has 's' || a.has 'n' || a.has 'o' || a.has 'g' then
      Sh.say ("total " ++ Nat.repr ((entries.map fun e =>
        blocksOf e.entry).foldl (· + ·) 0) ++ "\n")
    Sh.say (listLines a s entries)

end Arbor.Shell.Program
