import Arbor.Shell.Program.Sort

/-! # What differs between files

Two lists of lines are compared by a longest list that both contain in order; the lines outside of
it are the changes. Folders are compared entry by entry. -/

namespace Arbor.Shell.Program

namespace Difference

/-- A change: the lines from a place on in the first file give way to lines of the second. Places
are numbers of lines before the change. -/
structure Change where
  place : Nat
  removed : Nat
  target : Nat
  added : Nat
  deriving DecidableEq, Repr

/-- The lengths of the longest common lists of a list with all ends of another; `below` are those of
the list without its head. -/
def lengthRow (x : List UInt8) : List (List UInt8) → List Nat → List Nat
  | y :: ys, d :: ds =>
    match lengthRow x ys ds with
    | r :: rest => (if x = y then ds.headD 0 + 1 else max d r) :: r :: rest
    | [] => []
  | _, _ => [0]

/-- The lengths of the longest common lists of all ends of two lists. -/
def lengthTable (ys : List (List UInt8)) : List (List UInt8) → List (List Nat)
  | [] => [List.replicate (ys.length + 1) 0]
  | x :: xs =>
    let below := lengthTable ys xs
    lengthRow x ys (below.headD []) :: below

/-- A step through two lists: a line of both, of the first, or of the second. -/
inductive Step where
  | both
  | first
  | second
  deriving DecidableEq, Repr

/-- The steps through two lists along a longest common list. -/
def steps : Nat → List (List Nat) → List (List UInt8) → List (List UInt8) → List Step
  | 0, _, _, _ => []
  | fuel + 1, table, x :: xs, y :: ys =>
    let below := table.drop 1
    if x = y then .both :: steps fuel (below.map List.tail) xs ys
    else if ((table.headD []).tail.headD 0) ≤ ((below.headD []).headD 0) then
      .first :: steps fuel below xs (y :: ys)
    else .second :: steps fuel (table.map List.tail) (x :: xs) ys
  | fuel + 1, table, _ :: xs, [] => .first :: steps fuel table xs []
  | fuel + 1, table, [], _ :: ys => .second :: steps fuel table [] ys
  | _ + 1, _, [], [] => []

/-- The changes of steps, from places on. -/
def changesFrom (place target : Nat) : List Step → List Change
  | [] => []
  | .both :: rest => changesFrom (place + 1) (target + 1) rest
  | .first :: rest =>
    match changesFrom (place + 1) target rest with
    | c :: more =>
      if c.place = place + 1 && c.target = target then
        { c with place := place, removed := c.removed + 1 } :: more
      else ⟨place, 1, target, 0⟩ :: c :: more
    | [] => [⟨place, 1, target, 0⟩]
  | .second :: rest =>
    match changesFrom place (target + 1) rest with
    | c :: more =>
      if c.place = place && c.target = target + 1 then
        { c with target := target, added := c.added + 1 } :: more
      else ⟨place, 0, target, 1⟩ :: c :: more
    | [] => [⟨place, 0, target, 1⟩]

/-- A change that only removes or only adds lines, moved down as far as the lines allow, though not
beyond `limit`, the place of the next change in the first file. -/
def slide (xs ys : Array (List UInt8)) (limit : Nat) : Nat → Change → Change
  | 0, c => c
  | fuel + 1, c =>
    let moved := { c with place := c.place + 1, target := c.target + 1 }
    if c.added = 0 && c.place + c.removed < limit && (xs[c.place]?) = xs[c.place + c.removed]? then
      slide xs ys limit fuel moved
    else if c.removed = 0 && c.place < limit && (ys[c.target]?) = ys[c.target + c.added]? then
      slide xs ys limit fuel moved
    else c

/-- All changes, moved down. -/
def slideAll (xs ys : Array (List UInt8)) : List Change → List Change
  | c :: d :: rest => slide xs ys d.place (xs.size + ys.size) c :: slideAll xs ys (d :: rest)
  | [c] => [slide xs ys xs.size (xs.size + ys.size) c]
  | [] => []

/-- The number of lines that two lists have in common at their starts. -/
def alike : List (List UInt8) → List (List UInt8) → Nat
  | x :: xs, y :: ys => if x = y then alike xs ys + 1 else 0
  | _, _ => 0

/-- **The changes that lead from one list of lines to another.** -/
def changes (xs ys : List (List UInt8)) : List Change :=
  let front := alike xs ys
  let xs' := xs.drop front
  let ys' := ys.drop front
  let back := alike xs'.reverse ys'.reverse
  let xs' := xs'.take (xs'.length - back)
  let ys' := ys'.take (ys'.length - back)
  let path := steps (xs'.length + ys'.length + 1) (lengthTable ys' xs') xs' ys'
  slideAll xs.toArray ys.toArray (changesFrom front front path)

/-! ### How lines are compared -/

/-- A line without its blanks, or with one blank for several, or in one case, as asked. -/
def comparedLine (a : Arguments) (line : List UInt8) : List UInt8 :=
  let line := if a.has 'i' then line.map upperByte else line
  if a.has 'w' then line.filter fun b => !isBlankByte b
  else if a.has 'b' then
    let pieces := (line.splitOnP isBlankByte).zipIdx.filter fun p => !p.1.isEmpty || p.2 = 0
    List.intercalate [32] (pieces.map Prod.fst)
  else line

/-! ### How changes are written -/

/-- A range of lines by its first and last number; one without lines by the line before it. -/
def rangeText (place count : Nat) : String :=
  if count = 0 then Nat.repr place
  else if count = 1 then Nat.repr (place + 1)
  else Nat.repr (place + 1) ++ "," ++ Nat.repr (place + count)

/-- A line behind a mark; an end that is missing is told. -/
def markedLine (mark : String) (line : List UInt8) : List UInt8 :=
  let body := mark.toUTF8.toList ++ line
  if line.getLast? = some Stream.newline then body
  else body ++ "\n\\ No newline at end of file\n".toUTF8.toList

/-- Lines of a list behind a mark. -/
def markedLines (mark : String) (lines : List (List UInt8)) (place count : Nat) : List UInt8 :=
  ((lines.drop place).take count).flatMap (markedLine mark)

/-- A change in the short form. -/
def shortForm (xs ys : List (List UInt8)) (c : Change) : List UInt8 :=
  let letter := if c.removed = 0 then "a" else if c.added = 0 then "d" else "c"
  (rangeText c.place c.removed ++ letter ++ rangeText c.target c.added ++ "\n").toUTF8.toList ++
    markedLines "< " xs c.place c.removed ++
    (if letter = "c" then "---\n".toUTF8.toList else []) ++ markedLines "> " ys c.target c.added

/-- Changes in groups whose lines around them touch. -/
def grouped (around : Nat) : List Change → List (List Change)
  | [] => []
  | c :: rest =>
    match grouped around rest with
    | (d :: group) :: more =>
      if d.place ≤ c.place + c.removed + 2 * around then (c :: d :: group) :: more
      else [c] :: (d :: group) :: more
    | groups => [c] :: groups

/-- The first line and the number of lines of a part. -/
def partText (place count : Nat) : String :=
  if count = 1 then Nat.repr (place + 1)
  else Nat.repr (if count = 0 then place else place + 1) ++ "," ++ Nat.repr count

/-- The changes of a group from a place on, with the lines between them, up to an end. -/
def groupBody (xs ys : List (List UInt8)) (stop : Nat) : Nat → List Change → List UInt8
  | place, [] => markedLines " " xs place (stop - place)
  | place, c :: rest =>
    markedLines " " xs place (c.place - place) ++ markedLines "-" xs c.place c.removed ++
      markedLines "+" ys c.target c.added ++ groupBody xs ys stop (c.place + c.removed) rest

/-- A group of changes with the lines around them. -/
def groupForm (around : Nat) (xs ys : List (List UInt8)) (group : List Change) : List UInt8 :=
  match group.head?, group.getLast? with
  | some c, some d =>
    let start := c.place - around
    let stop := min xs.length (d.place + d.removed + around)
    let start' := c.target - (c.place - start)
    let stop' := d.target + d.added + (stop - (d.place + d.removed))
    ("@@ -" ++ partText start (stop - start) ++ " +" ++ partText start' (stop' - start') ++
      " @@\n").toUTF8.toList ++ groupBody xs ys stop start group
  | _, _ => []

/-- The options of `diff`. -/
def usage : Usage where
  program := "diff"
  code := 2
  letters := "abBcC:deEfF:hiI:lL:nNpPqrsS:tTuU:wW:x:X:y"
  names := [("brief", 'q'), ("ignore-case", 'i'), ("ignore-all-space", 'w'),
    ("ignore-space-change", 'b'), ("ignore-blank-lines", 'B'), ("recursive", 'r'),
    ("report-identical-files", 's'), ("unified=?", 'U'), ("label=", 'L'), ("text", 'a'),
    ("new-file", 'N'), ("color=?", 'O'), ("strip-trailing-cr", 'R')]
  advice := "diff: Try 'diff --help' for more information."

/-- The last change of a file as it is told. -/
def timeText : String := "1970-01-01 00:00:00.000000000 +0000"

/-- Writes what differs between the contents of two files. -/
def contents (a : Arguments) (title x y : String) (s t : List UInt8) : Sh Unit := do
  let differ := fun (text : String) => do
    Sh.say (text ++ x ++ " and " ++ y ++ " differ\n")
    Sh.finish 1
  let xs := Program.endedLines s
  let ys := Program.endedLines t
  let found := changes (xs.map (comparedLine a)) (ys.map (comparedLine a))
  let blank := fun (lines : List (List UInt8)) (place count : Nat) =>
    ((lines.drop place).take count).all (· = [Stream.newline])
  let told := found.filter fun c =>
    !(a.has 'B' && blank xs c.place c.removed && blank ys c.target c.added)
  if told.isEmpty then
    if a.has 's' then Sh.say ("Files " ++ x ++ " and " ++ y ++ " are identical\n")
  else if a.has 'q' then differ "Files "
  else if (s.contains 0 || t.contains 0) && !a.has 'a' then differ "Binary files "
  else do
    Sh.say title
    let around := ((a.value? 'U').bind count?).getD 3
    if a.has 'u' || a.has 'U' || (a.value? 'U').isSome then
      let label := fun (n : Nat) (name : String) =>
        ((a.allOf 'L')[n]?).getD (name ++ "\t" ++ timeText)
      Sh.say ("--- " ++ label 0 x ++ "\n+++ " ++ label 1 y ++ "\n")
      Sh.emit 1 (.ofBytes ((grouped around told).flatMap (groupForm around xs ys)))
    else Sh.emit 1 (.ofBytes (told.flatMap (shortForm xs ys)))
    Sh.finish 1

/-- A name inside of a folder. -/
def inside (folder name : String) : String :=
  if folder.endsWith "/" then folder ++ name else folder ++ "/" ++ name

/-- The kind of an entry in words. -/
def kindText (e : Entry) : String :=
  match e with
  | .folder => "a directory"
  | .file content => if content.size = 0 then "a regular empty file" else "a regular file"
  | .link _ => "a symbolic link"

/-- Writes what differs between two folders, at most `levels` deep. -/
def folders (a : Arguments) (flags : String) : Nat → String → String → Location → Location → Sh Unit
  | 0, _, _, _, _ => pure ()
  | levels + 1, x, y, left, right => do
    let fs := (← get).files
    let lefts := fs.children left
    let rights := fs.children right
    let names := ((lefts ++ rights).map Prod.fst).eraseDups.mergeSort fun p q => !decide (q < p)
    for name in names do
      match lefts.lookup name, rights.lookup name with
      | some _, none => do
        Sh.say ("Only in " ++ x ++ ": " ++ name ++ "\n")
        Sh.finish 1
      | none, some _ => do
        Sh.say ("Only in " ++ y ++ ": " ++ name ++ "\n")
        Sh.finish 1
      | some _, some _ => do
        let p := inside x name
        let q := inside y name
        match fs.status true (← Sh.locate p), fs.status true (← Sh.locate q) with
        | .ok (l, .folder), .ok (r, .folder) =>
          if a.has 'r' then folders a flags levels p q l r
          else Sh.say ("Common subdirectories: " ++ p ++ " and " ++ q ++ "\n")
        | .ok (_, .file s), .ok (_, .file t) =>
          contents a ("diff " ++ flags ++ p ++ " " ++ q ++ "\n") p q s.toList t.toList
        | .ok (_, e), .ok (_, f) => do
          Sh.say ("File " ++ p ++ " is " ++ kindText e ++ " while file " ++ q ++ " is " ++
            kindText f ++ "\n")
          Sh.finish 1
        | _, _ => pure ()
      | none, none => pure ()

/-- Writes what differs between two files or folders. -/
def entries (a : Arguments) (flags x y : String) : Sh Unit := do
  let fs := (← get).files
  let isFolder := fun (name : String) => do
    return name != "-" && fs.isFolder (← Sh.locate name)
  let base := fun (name : String) => (Path.mk name).fileName?.getD name
  match ← isFolder x, ← isFolder y with
  | true, true =>
    match fs.status true (← Sh.locate x), fs.status true (← Sh.locate y) with
    | .ok (l, _), .ok (r, _) =>
      if l != r then folders a flags (fs.entries.length + 1) x y l r
    | _, _ => pure ()
  | inX, inY => do
    let p := if inX then inside x (base y) else x
    let q := if inY then inside y (base x) else y
    let s ← source p
    let t ← source q
    let mut unread := false
    for (name, content) in [(p, s), (q, t)] do
      match content with
      | .error e => do
        unread := true
        Program.fail 2 ("diff: " ++ name ++ ": " ++ e.reason)
      | .ok _ => pure ()
    match s, t with
    | .ok s, .ok t => do contents a "" p q (← whole s) (← whole t)
    | _, _ => pure ()

end Difference

/-- Writes what differs between files. -/
def diff : Program := fun args => Difference.usage.checked (fun a => do
  match a.words with
  | [] => Difference.usage.refuse "missing operand after 'diff'"
  | [x] => Difference.usage.refuse ("missing operand after " ++ Names.argument x)
  | _ :: _ :: extra :: _ => Difference.usage.refuse ("extra operand " ++ Names.argument extra)
  | [x, y] =>
    let flags := String.join ((args.filter fun w => w.startsWith "-" && w != "-").map (· ++ " "))
    Difference.entries a flags x y) args

end Arbor.Shell.Program
