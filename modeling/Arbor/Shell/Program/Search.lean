import Arbor.Shell.Program.Listing
import Arbor.Shell.Regex
import Arbor.Text.Lower
import Arbor.Text.Utf8

/-! # Searching for lines

`grep` looks for lines in which one of some expressions matches, and writes them with their numbers,
their places and the lines around them as asked. -/

namespace Arbor.Shell.Program

/-! ### What is looked for -/

/-- What `grep` looks for. -/
structure Query where
  regex : Regex
  folded : Bool
  /-- A match has to be the whole line. -/
  wholeLine : Bool
  /-- A match has to be a whole word. -/
  wholeWord : Bool
  negated : Bool

/-- One of some expressions; the lookahead that never holds if there are none. -/
def oneOf : List Regex → Regex
  | [] => .ahead true .nothing
  | [r] => r
  | r :: rest => .either false r (oneOf rest)

/-- The query of expressions under options. -/
def queryOf (a : Arguments) (expressions : List String) : Except Regex.Fault Query := do
  let folded := a.has 'i' || a.has 'y'
  let spelling : Regex.Spelling :=
    if a.has 'P' then .rich else if a.has 'E' then .extended else .basic
  let regexes ← expressions.mapM fun e =>
    let cs := if folded then Text.lowerChars (octetsOf e) else octetsOf e
    if a.has 'F' then .ok (Regex.literal cs) else Regex.parse spelling cs
  return {
    regex := oneOf regexes
    folded := folded
    wholeLine := a.has 'x'
    wholeWord := a.has 'w'
    negated := a.has 'v' }

/-- A character of a word. -/
def inWord (c : Char) : Bool := c.isAlphanum || c == '_'

/-- The places in a line that fit a query: where they start and end. -/
def Query.places (q : Query) (cs : List Char) : List (Nat × Nat) :=
  let text := (if q.folded then Text.lowerChars cs else cs).toArray
  let regex := if q.wholeLine then
      .followed (.edge .textStart) (.followed (.group 0 q.regex) (.edge .textEnd))
    else q.regex
  let all := (regex.findAll text (text.size + 1) 0).map fun m => (m.1, m.2.1)
  all.filter fun (start, stop) =>
    !q.wholeWord || (!(start ≠ 0 && (text[start - 1]?).any inWord) && !(text[stop]?).any inWord)

/-- A line fits a query. -/
def Query.fits (q : Query) (cs : List Char) : Bool := (q.places cs).isEmpty = q.negated

/-! ### What is written -/

/-- A line of a file: its number from zero on, where it starts, and its characters. -/
structure Line where
  number : Nat
  place : Nat
  text : List Char
  found : Bool

/-- The lines of a file, with what the query says of them. -/
def linesOf (q : Query) : Nat → Nat → List (List UInt8) → List Line
  | _, _, [] => []
  | number, place, bytes :: rest =>
    let text := octets bytes
    ⟨number, place, text, q.fits text⟩ :: linesOf q (number + 1) (place + bytes.length + 1) rest

/-- Lines up to the `limit`-th that fits, and the others as lines that do not. -/
def limited : Nat → List Line → List Line
  | _, [] => []
  | 0, lines => lines.map fun l => { l with found := false }
  | n + 1, l :: rest => l :: limited (if l.found then n else n + 1) rest

/-- How many lines around a match are shown. -/
structure Surroundings where
  before : Nat
  behind : Nat
  /-- Groups of lines stand apart. -/
  apart : Bool

/-- The front of a line: the name of its file, its number and its place, as asked. -/
def lineFront (a : Arguments) (title : Option String) (l : Line) (place : Nat) : List UInt8 :=
  let mark := if l.found then ":" else "-"
  ((title.map (· ++ mark)).getD "" ++ (if a.has 'n' then Nat.repr (l.number + 1) ++ mark else "") ++
    if a.has 'b' then Nat.repr place ++ mark else "").toUTF8.toList

/-- One line as it is written, or the parts of it that fit. -/
def lineText (a : Arguments) (q : Query) (title : Option String) (l : Line) : List UInt8 :=
  if a.has 'o' then
    if !l.found || q.negated then []
    else
      ((q.places l.text).filter fun p => p.1 < p.2).flatMap fun p =>
        lineFront a title l (l.place + p.1) ++ ofOctets ((l.text.take p.2).drop p.1) ++
          [Stream.newline]
  else lineFront a title l l.place ++ ofOctets l.text ++ [Stream.newline]

/-- The lines that are shown: those that fit and those around them. -/
def shownLines (w : Surroundings) (lines : List Line) : List Line :=
  let found := (lines.filter Line.found).map Line.number
  lines.filter fun l => l.found ||
    found.any fun n => (n ≤ l.number && l.number ≤ n + w.behind) ||
      (l.number ≤ n && n ≤ l.number + w.before)

/-- Lines with a mark between groups; `last` is the number of the line before, `used` tells that
something was written before. -/
def groupedText (a : Arguments) (q : Query) (w : Surroundings) (title : Option String) :
    Bool → Option Nat → List Line → List UInt8
  | _, _, [] => []
  | used, last, l :: rest =>
    let parted := w.apart && used && last != some l.number
    (if parted then "--\n".toUTF8.toList else []) ++ lineText a q title l ++
      groupedText a q w title true (some (l.number + 1)) rest

/-! ### Files -/

/-- The name is one that is searched. -/
def isSearched (a : Arguments) (name : String) : Bool :=
  let included := a.allOf 'I'
  (included.isEmpty || included.any fun p => fitsPattern p name) &&
    !(a.allOf 'X').any fun p => fitsPattern p name

/-- The files below a path, by name. -/
def filesBelow (a : Arguments) (fs : FileSystem) : Nat → String → Location → List String
  | 0, _, _ => []
  | levels + 1, path, loc =>
    (fs.children loc).flatMap fun c =>
      let inner := if path.isEmpty then c.1 else if path.endsWith "/" then path ++ c.1
        else path ++ "/" ++ c.1
      match c.2 with
      | .file _ => if isSearched a c.1 then [inner] else []
      | .folder => if (a.allOf 'D').any fun p => fitsPattern p c.1 then []
          else filesBelow a fs levels inner (loc ++ [c.1])
      | .link _ => if a.has 'R' && isSearched a c.1 then [inner] else []

/-- The names of the files that are searched: for folders, if asked, everything below them. -/
def searched (a : Arguments) (s : State) (deep : Bool) (names : List String) : List String :=
  let levels := s.files.entries.length + 1
  if names.isEmpty && deep then
    match s.files.status true s.cwd with
    | .ok (loc, _) => filesBelow a s.files levels "" loc
    | .error _ => []
  else (sources names).flatMap fun name =>
    match deep, s.files.status true (s.locate name) with
    | true, .ok (loc, .folder) => filesBelow a s.files levels name loc
    | _, _ => [name]

/-! ### Arguments -/

/-- The options of `grep`. -/
def grepUsage : Usage where
  program := "grep"
  code := 2
  letters := "A:B:C:EFGHLPTUZabcd:e:f:hilm:noqRrsuvwxyz"
  names := [("after-context=", 'A'), ("before-context=", 'B'), ("context=", 'C'),
    ("byte-offset", 'b'),
    ("count", 'c'), ("color=?", 'Y'), ("colour=?", 'Y'), ("extended-regexp", 'E'),
    ("fixed-strings", 'F'), ("basic-regexp", 'G'), ("perl-regexp", 'P'), ("exclude=", 'X'),
    ("exclude-dir=", 'D'), ("include=", 'I'), ("file=", 'f'), ("files-with-matches", 'l'),
    ("files-without-match", 'L'), ("ignore-case", 'i'), ("no-ignore-case", 'N'),
    ("invert-match", 'v'), ("line-number", 'n'), ("line-regexp", 'x'), ("max-count=", 'm'),
    ("no-filename", 'h'), ("no-messages", 's'), ("only-matching", 'o'), ("quiet", 'q'),
    ("recursive", 'r'), ("dereference-recursive", 'R'), ("regexp=", 'e'), ("silent", 'q'),
    ("text", 'a'), ("with-filename", 'H'), ("word-regexp", 'w'), ("null-data", 'z')]
  advice := "Usage: grep [OPTION]... PATTERNS [FILE]...\nTry 'grep --help' for more information."

/-- The expressions and the files among the arguments of `grep`; nothing if there is no
expression. -/
def grepWords (a : Arguments) : Sh (Except String (Option (List String × List String))) := do
  let given := a.values.filter fun v => v.1 == 'e' || v.1 == 'f'
  let split := fun (s : String) => (s.toList.splitOn '\n').map String.ofList
  if given.isEmpty then
    match a.words with
    | [] => return .ok none
    | e :: names => return .ok (some (split e, names))
  else do
    let mut expressions : List String := []
    for (kind, text) in given do
      if kind == 'e' then expressions := expressions ++ split text
      else
        match ← source text with
        | .ok s =>
          expressions := expressions ++
            (Stream.lines (← whole s)).map fun l => String.ofList (Text.decode l)
        | .error e => return .error (text ++ ": " ++ e.reason)
    return .ok (some (expressions, a.words))

/-- How many lines around a match are asked for. -/
def surroundings (a : Arguments) : Except String Surroundings := do
  let number := fun (c : Char) =>
    match a.value? c with
    | none => (.ok none : Except String (Option Nat))
    | some text =>
      match count? text with
      | some n => .ok (some n)
      | none => .error (text ++ ": invalid context length argument")
  let both ← number 'C'
  let before ← number 'B'
  let behind ← number 'A'
  return {
    before := (before.or both).getD 0
    behind := (behind.or both).getD 0
    apart := both.isSome || before.isSome || behind.isSome }

/-- The signs at the start of an expression that have nothing to repeat. -/
def strayRepeats (a : Arguments) (expressions : List String) : List Char :=
  if !a.has 'E' then []
  else expressions.flatMap fun e =>
    let starts := e.toList.head? :: ((e.toList.zip (e.toList.drop 1)).filter fun p =>
      p.1 == '|' || p.1 == '(').map fun p => some p.2
    starts.filterMap fun c => c.filter "*+?".toList.contains

/-! ### The program -/

/-- What `grep` does with a file that it has read: how many lines it found. -/
def grepFile (a : Arguments) (q : Query) (w : Surroundings) (used : Bool) (title : Option String)
    (name : String) (bytes : List UInt8) : Sh (Nat × Bool) := do
  let all := linesOf q 0 0 (Stream.lines bytes)
  let lines := match (a.value? 'm').bind count? with
    | some n => limited n all
    | none => all
  let n := (lines.filter Line.found).length
  if a.has 'q' then return (n, used)
  else if a.has 'l' then Sh.say (if n = 0 then "" else name ++ "\n")
  else if a.has 'L' then Sh.say (if n = 0 then name ++ "\n" else "")
  else if a.has 'c' then Sh.say ((title.map (· ++ ":")).getD "" ++ Nat.repr n ++ "\n")
  else if bytes.contains 0 && !a.has 'a' then
    if n ≠ 0 then Sh.complain ("grep: " ++ name ++ ": binary file matches")
  else
    let shown := shownLines w lines
    Sh.emit 1 (.ofBytes (groupedText a q w title used none shown))
    return (n, used || !shown.isEmpty)
  return (n, used)

/-- Searches files. -/
def grepFiles (a : Arguments) (q : Query) (w : Surroundings) (names : List String) : Sh Unit := do
  let s ← get
  let deep := a.has 'r' || a.has 'R'
  let folders := deep && names.any fun n => s.files.isFolder (s.locate n)
  let several := 1 < names.length || folders || (deep && names.isEmpty)
  let titled := (several || a.has 'H') && !a.has 'h'
  let mut found := 0
  let mut trouble := false
  let mut used := false
  for name in searched a s deep names do
    if !(a.has 'q' && found ≠ 0) then
      let shown := if name = "-" then "(standard input)" else name
      match ← source name with
      | .ok content => do
        let (n, written) ← grepFile a q w used (if titled then some shown else none) shown
          (← whole content)
        found := found + n
        used := written
      | .error e => do
        trouble := true
        if !a.has 's' then Sh.complain ("grep: " ++ name ++ ": " ++ e.reason)
  Sh.finish (if found ≠ 0 && a.has 'q' then 0 else if trouble then 2
    else if found = 0 then 1 else 0)

/-- Numbers as options ask for lines around a match. -/
def grepNumbers (args : List String) : List String :=
  args.map fun arg => match arg.toList with
    | '-' :: c :: cs =>
      if (c :: cs).all Char.isDigit then String.ofList ('-' :: 'C' :: c :: cs) else arg
    | _ => arg

/-- Searches with further options as if they were given. -/
def grepWith (more : List Char) : Program := fun args => grepUsage.checked (fun a => do
  let a := { a with letters := more ++ a.letters }
  let matchers := ("EFGP".toList.filter a.has).length
  match ← grepWords a, surroundings a with
  | .error text, _ => fail 2 ("grep: " ++ text)
  | .ok none, _ => fail 2 grepUsage.advice
  | .ok (some _), .error text => fail 2 ("grep: " ++ text)
  | .ok (some (expressions, names)), .ok w =>
    if 1 < matchers then fail 2 "grep: conflicting matchers specified"
    else if (a.value? 'm').any fun m => (int? m).isNone then fail 2 "grep: invalid max count"
    else
      match queryOf a expressions with
      | .error fault => fail 2 ("grep: " ++ fault.message)
      | .ok q => do
        for c in strayRepeats a expressions do
          Sh.complain ("grep: warning: " ++ c.toString ++ " at start of expression")
        grepFiles a q w names) (grepNumbers args)

/-- Writes the lines of files that fit an expression. -/
def grep : Program := grepWith []

/-- The same in the extended spelling. -/
def egrep : Program := grepWith ['E']

/-- The same with texts for expressions. -/
def fgrep : Program := grepWith ['F']

end Arbor.Shell.Program
