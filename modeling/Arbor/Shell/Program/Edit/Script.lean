import Arbor.Shell.Program.Options
import Arbor.Shell.Regex
import Arbor.Text.Lower

/-! # Scripts of edits

A script is a list of edits. An edit has a line, or the lines from one to another, and an action. -/

namespace Arbor.Shell.Program

/-- An expression, with or without regard to case. -/
structure Expression where
  regex : Regex
  folded : Bool

/-- A line as an expression sees it. -/
def Expression.view (e : Expression) (cs : List Char) : Array Char :=
  (if e.folded then Text.lowerChars cs else cs).toArray

/-- The lines that an edit is about. -/
inductive Address where
  | number (n : Nat)
  /-- A line and every so many lines behind it. -/
  | every (first step : Nat)
  | last
  /-- The lines in which an expression matches; without one, the last that was used. -/
  | fitting (e : Option Expression)
  /-- So many lines behind the first one of a range. -/
  | offset (n : Nat)
  /-- The next line behind the first one of a range whose number is a multiple. -/
  | multiple (n : Nat)

/-- How the case of letters is changed. -/
inductive CaseChange where
  | upper
  | lower
  | kept
  | nextUpper
  | nextLower
  deriving DecidableEq, Repr

/-- A character in another case. -/
def CaseChange.apply (c : CaseChange) (x : Char) : Char :=
  match c with
  | .upper => x.toUpper
  | .nextUpper => x.toUpper
  | .lower => x.toLower
  | .nextLower => x.toLower
  | .kept => x

/-- A piece of what takes the place of a match: a text, a group of the match, or a change of
case. -/
inductive Piece where
  | text (c : Char)
  | group (n : Nat)
  | change (c : CaseChange)

/-- What takes the place of what. -/
structure Substitution where
  /-- Without an expression, the last that was used. -/
  expression : Option Expression
  folded : Bool
  /-- Starts and ends are those of lines. -/
  lines : Bool
  pieces : List Piece
  /-- Which match is replaced first, from one on, if not the first. -/
  first : Option Nat
  /-- All matches behind the first one are replaced too. -/
  all : Bool
  prints : Bool
  /-- The file to which the line is written then. -/
  target : Option String

/-- What an edit does. -/
inductive EditAction where
  /-- The edits up to the one that closes the group. -/
  | openGroup
  | closeGroup
  | label (name : String)
  | print
  | printFirst
  | number
  | delete
  | deleteFirst
  | quit (code : Nat) (prints : Bool)
  | next
  | join
  | keep (adds : Bool)
  | fetch (adds : Bool)
  | exchange
  | substitute (s : Substitution)
  | translate (table : List (Char × Char))
  | insert (text : List Char)
  | append (text : List Char)
  | change (text : List Char)
  /-- Writes the work space in a form that shows every character, in lines of some width. -/
  | show (width : Option Nat)
  | clear
  | title
  | readFile (name : String)
  /-- The next line of a file. -/
  | readLine (name : String)
  | writeFile (name : String)
  | writeFirst (name : String)
  /-- Goes to a label; if `after` says so, only after a substitution, or only without one. -/
  | jump (after : Option Bool) (name : String)

/-- An edit. -/
structure Edit where
  start : Option Address
  stop : Option Address
  negated : Bool
  action : EditAction

namespace Edit

/-! ### Reading -/

/-- What is read and the rest, or why nothing can be read and what is left then. -/
abbrev Reading (α : Type) := Except (String × List Char) (α × List Char)

/-- The text up to a delimiter, which an escape makes part of it. In an expression a set in brackets
may hold it; `inSet` tells how many characters of one have been read. -/
def readUpTo (delimiter : Char) (expression : Bool) :
    Option Nat → List Char → Option (List Char × List Char)
  | _, [] => none
  | some n, c :: rest =>
    let opens := n = 0 && (c == ']' || c == '^')
    let next := if c == ']' && !opens then none else some (if n = 0 && c == '^' then 0 else n + 1)
    (readUpTo delimiter expression next rest).map fun r => (c :: r.1, r.2)
  | none, '\\' :: c :: rest =>
    (readUpTo delimiter expression none rest).map fun r =>
      (if c == delimiter then c :: r.1 else '\\' :: c :: r.1, r.2)
  | none, c :: rest =>
    if c == delimiter then some ([], rest)
    else
      (readUpTo delimiter expression (if expression && c == '[' then some 0 else none) rest).map
        fun r => (c :: r.1, r.2)

/-- The character of the digits at the front of a text, at most `count` of them, and the rest. -/
def codeAt? (base count : Nat) (cs : List Char) : Option (Char × List Char) :=
  let isDigit := fun (c : Char) =>
    (("0123456789abcdef".toList.take base).idxOf? c.toLower).isSome
  let digits := (cs.take count).takeWhile isDigit
  let value := digits.foldl (fun n c =>
    n * base + (("0123456789abcdef".toList.idxOf? c.toLower).getD 0)) 0
  if digits.isEmpty then none else some (Char.ofNat (value % 256), cs.drop digits.length)

/-- The character that stands behind a backslash under a letter or a code, and the rest. -/
def escape? : List Char → Option (Char × List Char)
  | 'a' :: rest => some (Char.ofNat 7, rest)
  | 'f' :: rest => some (Char.ofNat 12, rest)
  | 'n' :: rest => some ('\n', rest)
  | 'r' :: rest => some ('\r', rest)
  | 't' :: rest => some ('\t', rest)
  | 'v' :: rest => some (Char.ofNat 11, rest)
  | 'c' :: x :: rest => some (Char.ofNat ((x.toUpper.toNat + 64) % 128), rest)
  | 'd' :: rest => codeAt? 10 3 rest
  | 'o' :: rest => codeAt? 8 3 rest
  | 'x' :: rest => codeAt? 16 2 rest
  | _ => none

/-- An expression with its codes replaced by their characters. -/
def decoded : Nat → List Char → List Char
  | 0, cs => cs
  | _ + 1, [] => []
  | fuel + 1, '\\' :: rest =>
    match escape? rest with
    | some (c, rest) => c :: decoded fuel rest
    | none => '\\' :: rest.take 1 ++ decoded fuel (rest.drop 1)
  | fuel + 1, c :: rest => c :: decoded fuel rest

/-- The expression of a text, with its flags: without regard to case, and line by line. An empty one
is the last that was used. -/
def readExpression (spelling : Regex.Spelling) (folded lines : Bool) (cs left : List Char) :
    Except (String × List Char) (Option Expression) :=
  if cs.isEmpty then .ok none
  else
    let cs := decoded cs.length cs
    match Regex.parse spelling (if folded then Text.lowerChars cs else cs) with
    | .ok r => .ok (some ⟨if lines then r.byLines else r, folded⟩)
    | .error fault => .error (fault.message, left)

/-- A number at the front, and the rest. -/
def readNumber (cs : List Char) : Nat × List Char :=
  let digits := cs.takeWhile Char.isDigit
  ((count? (String.ofList digits)).getD 0, cs.drop digits.length)

/-- An address at the front, if there is one. -/
def readAddress (spelling : Regex.Spelling) (cs : List Char) :
    Except (String × List Char) (Option Address × List Char) :=
  let expression := fun (delimiter : Char) (rest : List Char) =>
    (match readUpTo delimiter true none rest with
    | some (e, rest) => do
      let flags := rest.takeWhile fun c => c == 'I' || c == 'M'
      let rest := rest.drop flags.length
      let e ← readExpression spelling (flags.contains 'I') (flags.contains 'M') e rest
      return (some (.fitting e), rest)
    | none => .error ("unterminated address regex", []) :
      Except (String × List Char) (Option Address × List Char))
  match cs with
  | '$' :: rest => .ok (some .last, rest)
  | '/' :: rest => expression '/' rest
  | ['\\'] => .error ("unterminated address regex", [])
  | '\\' :: d :: rest => expression d rest
  | '+' :: rest =>
    let (n, rest) := readNumber rest
    .ok (some (.offset n), rest)
  | '~' :: rest =>
    let (n, rest) := readNumber rest
    .ok (some (.multiple n), rest)
  | c :: rest =>
    if !c.isDigit then .ok (none, cs)
    else
      match readNumber (c :: rest) with
      | (n, '~' :: rest) =>
        let (step, rest) := readNumber rest
        .ok (some (.every n step), rest)
      | (n, rest) => .ok (some (.number n), rest)
  | [] => .ok (none, [])

/-- The change of case that a letter behind a backslash stands for. -/
def caseChange? : Char → Option CaseChange
  | 'U' => some .upper
  | 'L' => some .lower
  | 'E' => some .kept
  | 'u' => some .nextUpper
  | 'l' => some .nextLower
  | _ => none

/-- The pieces of a replacement. -/
def readPieces : Nat → List Char → List Piece
  | 0, _ => []
  | _ + 1, [] => []
  | fuel + 1, '&' :: rest => .group 0 :: readPieces fuel rest
  | fuel + 1, '\\' :: c :: rest =>
    match escape? (c :: rest), caseChange? c with
    | some (x, rest), _ => .text x :: readPieces fuel rest
    | none, some change => .change change :: readPieces fuel rest
    | none, none =>
      (if c.isDigit then .group (c.toNat - '0'.toNat) else .text c) :: readPieces fuel rest
  | fuel + 1, c :: rest => .text c :: readPieces fuel rest

/-- The flags behind a substitution. -/
def readFlags : Nat → Substitution → List Char → Reading Substitution
  | 0, s, cs => .ok (s, cs)
  | fuel + 1, s, cs =>
    match cs with
    | 'g' :: rest =>
      if s.all then .error ("multiple \x60g' options to \x60s' command", rest)
      else readFlags fuel { s with all := true } rest
    | 'p' :: rest =>
      if s.prints then .error ("multiple \x60p' options to \x60s' command", rest)
      else readFlags fuel { s with prints := true } rest
    | 'i' :: rest => readFlags fuel { s with folded := true } rest
    | 'I' :: rest => readFlags fuel { s with folded := true } rest
    | ' ' :: rest => readFlags fuel s rest
    | 'm' :: rest => readFlags fuel { s with lines := true } rest
    | 'M' :: rest => readFlags fuel { s with lines := true } rest
    | 'w' :: rest =>
      let name := (rest.dropWhile (· == ' ')).takeWhile (· != '\n')
      if name.isEmpty then .error ("missing filename in r/R/w/W commands", [])
      else .ok ({ s with target := some (String.ofList name) }, rest.dropWhile (· != '\n'))
    | c :: rest =>
      if c.isDigit then
        let (n, rest) := readNumber (c :: rest)
        if n = 0 then .error ("number option to \x60s' command may not be zero", rest)
        else if s.first.isSome then .error ("multiple number options to \x60s' command", rest)
        else readFlags fuel { s with first := some n } rest
      else .ok (s, c :: rest)
    | [] => .ok (s, [])

/-- Two texts between delimiters, behind the letter of an action. -/
def readTwo (letter : String) (expression : Bool) (cs : List Char) :
    Reading (List Char × List Char) :=
  let unended := .error ("unterminated \x60" ++ letter ++ "' command", [])
  match cs with
  | [] => unended
  | d :: rest =>
    match readUpTo d expression none rest with
    | none => unended
    | some (a, rest) =>
      match readUpTo d false none rest with
      | none => unended
      | some (b, rest) => .ok ((a, b), rest)

/-- The greatest group that pieces name. -/
def greatestGroup (pieces : List Piece) : Nat :=
  (pieces.map fun p => match p with
    | .group n => n
    | _ => 0).foldl max 0

/-- A substitution, behind its letter. -/
def readSubstitution (spelling : Regex.Spelling) (cs : List Char) :
    Except (String × List Char) (EditAction × List Char) := do
  let ((e, r), rest) ← readTwo "s" true cs
  let plain : Substitution := {
    expression := none
    folded := false
    lines := false
    pieces := readPieces r.length r
    first := none
    all := false
    prints := false
    target := none }
  let (s, rest) ← readFlags (rest.length + 1) plain rest
  let expression ← readExpression spelling s.folded s.lines e rest
  let greatest := greatestGroup s.pieces
  match expression with
  | some e =>
    if e.regex.groupCount < greatest then
      throw ("invalid reference \\" ++ Nat.repr greatest ++ " on \x60s' command's RHS", rest)
  | none => pure ()
  return (.substitute { s with expression := expression }, rest)

/-- A table of characters, behind its letter. -/
def readTable (cs : List Char) : Reading EditAction :=
  match readTwo "y" false cs with
  | .error e => .error e
  | .ok ((a, b), rest) =>
    let plain := fun (cs : List Char) => (readPieces cs.length cs).filterMap fun p => match p with
      | .text c => some c
      | .group 0 => some '&'
      | _ => none
    let a := plain a
    let b := plain b
    if a.length = b.length then .ok (.translate (a.zip b), rest)
    else .error ("strings for \x60y' command are different lengths", rest)

/-- The lines of an insertion: up to the end of a line that has no backslash. -/
def insertedLines : Nat → List Char → List Char × List Char
  | 0, cs => ([], cs)
  | _ + 1, [] => ([], [])
  | fuel + 1, '\\' :: c :: rest =>
    let (x, rest) := (escape? (c :: rest)).getD (c, rest)
    let (text, rest) := insertedLines fuel rest
    (x :: text, rest)
  | _ + 1, ['\\'] => ([], [])
  | _ + 1, '\n' :: rest => ([], rest)
  | fuel + 1, c :: rest =>
    let (text, rest) := insertedLines fuel rest
    (c :: text, rest)

/-- The text of an insertion, with the end of its last line; none if nothing is given. -/
def readInsertion (cs : List Char) : List Char × List Char :=
  let isPad := fun c => c == ' ' || c == '\t'
  let cs := match cs.dropWhile isPad with
    | '\\' :: rest =>
      match rest.dropWhile isPad with
      | '\n' :: rest => rest
      | _ => rest
    | cs => cs
  if cs.isEmpty then ([], [])
  else
    let (text, rest) := insertedLines (cs.length + 1) cs
    (text ++ ['\n'], rest)

/-- The name of a label, up to a blank or a semicolon. -/
def readLabel (cs : List Char) : String × List Char :=
  let cs := cs.dropWhile (· == ' ')
  let name := cs.takeWhile fun c => !" ;\n\x7d".toList.contains c
  (String.ofList name, cs.drop name.length)

/-- The exit code behind a letter. -/
def readCode (prints : Bool) (cs : List Char) : EditAction × List Char :=
  let (n, rest) := readNumber (cs.dropWhile (· == ' '))
  (.quit n prints, rest)

/-- The action at the front. -/
def readAction (spelling : Regex.Spelling) (cs : List Char) : Reading EditAction :=
  let inserting := fun (make : List Char → EditAction) (rest : List Char) =>
    if rest.isEmpty then .error ("expected \\ after \x60a', \x60c' or \x60i'", [])
    else
      let (text, rest) := readInsertion rest
      .ok (make text, '\n' :: rest)
  let naming := fun (make : String → EditAction) (rest : List Char) =>
    let name := (rest.dropWhile (· == ' ')).takeWhile (· != '\n')
    if name.isEmpty then .error ("missing filename in r/R/w/W commands", [])
    else .ok (make (String.ofList name), rest.dropWhile (· != '\n'))
  let jumping := fun (after : Option Bool) (rest : List Char) =>
    let (name, rest) := readLabel rest
    .ok (.jump after name, rest)
  match cs with
  | [] => .error ("missing command", [])
  | '\x7b' :: rest => .ok (.openGroup, ';' :: rest)
  | '\x7d' :: rest => .ok (.closeGroup, rest)
  | ':' :: rest =>
    match readLabel rest with
    | ("", rest) => .error ("\":\" lacks a label", rest)
    | (name, rest) => .ok (.label name, rest)
  | 'p' :: rest => .ok (.print, rest)
  | 'P' :: rest => .ok (.printFirst, rest)
  | '=' :: rest => .ok (.number, rest)
  | 'd' :: rest => .ok (.delete, rest)
  | 'D' :: rest => .ok (.deleteFirst, rest)
  | 'q' :: rest => .ok (readCode true rest)
  | 'Q' :: rest => .ok (readCode false rest)
  | 'n' :: rest => .ok (.next, rest)
  | 'N' :: rest => .ok (.join, rest)
  | 'h' :: rest => .ok (.keep false, rest)
  | 'H' :: rest => .ok (.keep true, rest)
  | 'g' :: rest => .ok (.fetch false, rest)
  | 'G' :: rest => .ok (.fetch true, rest)
  | 'x' :: rest => .ok (.exchange, rest)
  | 'l' :: rest =>
    let digits := (rest.dropWhile (· == ' ')).takeWhile Char.isDigit
    .ok (.show (count? (String.ofList digits)), (rest.dropWhile (· == ' ')).drop digits.length)
  | 'z' :: rest => .ok (.clear, rest)
  | 'F' :: rest => .ok (.title, rest)
  | 'r' :: rest => naming .readFile rest
  | 'R' :: rest => naming .readLine rest
  | 'w' :: rest => naming .writeFile rest
  | 'W' :: rest => naming .writeFirst rest
  | 's' :: rest => readSubstitution spelling rest
  | 'y' :: rest => readTable rest
  | 'i' :: rest => inserting .insert rest
  | 'a' :: rest => inserting .append rest
  | 'c' :: rest => inserting .change rest
  | 'v' :: rest => .ok (.label "", rest.dropWhile fun c => c == '.' || c == ' ' || c.isDigit)
  | 'b' :: rest => jumping none rest
  | 't' :: rest => jumping (some true) rest
  | 'T' :: rest => jumping (some false) rest
  | c :: rest => .error ("unknown command: \x60" ++ c.toString ++ "'", rest)

/-- The lines of an edit: its first and, behind a comma, its last address. -/
def readLines (spelling : Regex.Spelling) (cs : List Char) :
    Except (String × List Char) ((Option Address × Option Address) × List Char) := do
  let isPad := fun c => c == ' ' || c == '\t'
  let (start, cs) ← readAddress spelling cs
  if start matches some (.offset _) | some (.multiple _) then
    throw ("invalid usage of +N or ~N as first address", cs)
  let (stop, cs) ← match start, cs.dropWhile isPad with
    | some _, ',' :: rest => do
      let (stop, rest) ← readAddress spelling (rest.dropWhile isPad)
      if stop.isNone then throw ("unexpected \x60,'", rest.drop 1)
      pure (stop, rest)
    | _, _ => pure (none, cs)
  let cs := cs.dropWhile isPad
  if start matches some (.number 0) then
    if !(stop matches some (.fitting _)) then throw ("invalid usage of line address 0", cs.drop 1)
  return ((start, stop), cs)

/-- What is wrong with the number of addresses of an action. -/
def misplaced? (start stop : Option Address) : EditAction → Option String
  | .label name => if start.isSome && !name.isEmpty then some ": doesn't want any addresses"
      else none
  | .quit _ _ => if stop.isSome then some "command only uses one address" else none
  | _ => none

/-- One edit. -/
def readOne (spelling : Regex.Spelling) (cs : List Char) :
    Except (String × List Char) (Edit × List Char) := do
  let ((start, stop), cs) ← readLines spelling cs
  let negated := cs.head? == some '!'
  let cs := if negated then (cs.drop 1).dropWhile (· == ' ') else cs
  if negated && cs.head? == some '!' then throw ("multiple \x60!'s", cs.drop 1)
  let (action, rest) ← readAction spelling cs
  match misplaced? start stop action with
  | some text => throw (text, cs.drop 1)
  | none => pure ()
  return ({ start := start, stop := stop, negated := negated, action := action }, rest)

/-- What may stand behind an action; behind a label, anything. -/
def endsAction (a : EditAction) (cs : List Char) : Bool :=
  (a matches .label _ | .jump _ _) ||
    cs.head?.all fun c => c == ';' || c == '\n' || c == '\x7d' || c == '#'

/-- Edits up to the end, between semicolons and line ends, with `depth` groups open. -/
def readAll (spelling : Regex.Spelling) :
    Nat → Nat → List Char → Except (String × List Char) (List Edit)
  | 0, _, _ => .ok []
  | fuel + 1, depth, cs =>
    match cs.dropWhile fun c => c == ';' || c == ' ' || c == '\n' || c == '\t' with
    | [] => if depth = 0 then .ok [] else .error ("unmatched \x60\x7b'", cs)
    | '#' :: rest => readAll spelling fuel depth (rest.dropWhile (· != '\n'))
    | cs => do
      let (edit, cs) ← readOne spelling cs
      let depth ← match edit.action, depth with
        | .openGroup, n => pure (n + 1)
        | .closeGroup, 0 => throw ("unexpected \x60\x7d'", cs)
        | .closeGroup, n + 1 => pure n
        | _, n => pure n
      let cs := cs.dropWhile (· == ' ')
      if endsAction edit.action cs then return edit :: (← readAll spelling fuel depth cs)
      else
        let replacing := edit.action matches .substitute _
        throw (if replacing then "unknown option to \x60s'" else "extra characters after command",
          cs.drop 1)

/-- A part of a script: an argument with its number, or a file. -/
structure Part where
  /-- The name of the file, if it is one. -/
  file : Option String
  text : String

/-- The place behind `count` characters of parts, which are divided by line ends; `number` is the
number of the next argument. -/
def place (count number : Nat) : List Part → String
  | [] => "-e expression #" ++ Nat.repr (number - 1) ++ ", char 0"
  | part :: rest =>
    let size := (octetsOf part.text).length
    if count ≤ size then
      match part.file with
      | none => "-e expression #" ++ Nat.repr number ++ ", char " ++ Nat.repr count
      | some name =>
        let before := (octetsOf part.text).take count
        "file " ++ name ++ " line " ++ Nat.repr (before.count '\n' + 1)
    else place (count - size - 1) (if part.file.isSome then number else number + 1) rest

/-- The edits of a script, or why it cannot be read. -/
def read (spelling : Regex.Spelling) (parts : List Part) : Except String (List Edit) :=
  let cs := octetsOf (String.intercalate "\n" (parts.map Part.text))
  match readAll spelling (2 * cs.length + 1) 0 cs with
  | .ok edits => .ok edits
  | .error (what, left) =>
    let count := if what = "unmatched \x60\x7b'" then cs.length + 1 else cs.length - left.length
    .error (place count 1 parts ++ ": " ++ what)

/-- The script says at its start that nothing is written unasked. -/
def startsQuiet (parts : List Part) : Bool := (parts.head?).any fun p => p.text.startsWith "#n"

end Edit

end Arbor.Shell.Program
