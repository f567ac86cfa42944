import Arbor.Shell.Program.Edit.Script

/-! # Edits at work

The lines of the input are taken one by one into a work space. For each the edits are gone through.
At the end of a round the work space is written, unless it was deleted or nothing is to be written
unasked. A second space keeps what later rounds need. -/

namespace Arbor.Shell.Program.Edit

/-! ### Substitution -/

/-- The replacement of a match. -/
def fill (line : Array Char) (start stop : Nat) (groups : Regex.Groups) (p : Piece) : List Char :=
  match p with
  | .text c => [c]
  | .group 0 => (line.extract start stop).toList
  | .group n => match groups.lookup n with
    | some (a, b) => (line.extract a b).toList
    | none => []
  | .change _ => []

/-- Characters in another case, of which the first may have a case of its own. -/
def inCase (next : Option CaseChange) (all : CaseChange) : List Char → List Char
  | [] => []
  | c :: rest => (next.getD all).apply c :: rest.map all.apply

/-- Pieces filled in for a match, with changes of case. -/
def filled (line : Array Char) (start stop : Nat) (groups : Regex.Groups) :
    Option CaseChange → CaseChange → List Piece → List Char
  | _, _, [] => []
  | _, all, .change c :: rest =>
    if c = .nextUpper || c = .nextLower then filled line start stop groups (some c) all rest
    else filled line start stop groups none c rest
  | next, all, p :: rest =>
    let here := fill line start stop groups p
    inCase next all here ++
      filled line start stop groups (if here.isEmpty then next else none) all rest

/-- The line behind a position, with matches replaced. -/
def replaceFrom (line : Array Char) (pieces : List Piece) :
    Nat → List (Nat × Nat × Regex.Groups) → List Char
  | pos, [] => (line.extract pos line.size).toList
  | pos, (start, stop, groups) :: rest =>
    (line.extract pos start).toList ++ filled line start stop groups none .kept pieces ++
      replaceFrom line pieces stop rest

/-- The line after a substitution, if anything was replaced. -/
def substituted? (s : Substitution) (e : Expression) (cs : List Char) : Option (List Char) :=
  let line := cs.toArray
  let found := (e.regex.occurrences (e.view cs)).drop (s.first.getD 1 - 1)
  if found.isEmpty then none
  else some (replaceFrom line s.pieces 0 (if s.all then found else found.take 1))

/-! ### Editing -/

/-- A part of what is written. -/
structure Writing where
  text : List Char
  /-- The text lacks the end of its last line, which it gets when more is written. -/
  isOpen : Bool
  /-- The text reaches the output as a file. -/
  aside : Bool

/-- A text that is written as it is. -/
def Writing.plain (text : List Char) : Writing := ⟨text, false, false⟩

/-- Writings, the last one first, as one text. A line without its end gets it when something follows
that is written in the same way. -/
def joined (ending : Char) : List Writing → List Char → Bool → Bool → List Char
  | [], text, _, _ => text
  | w :: rest, text, main, side =>
    let lacking := w.isOpen && (if w.aside then side else main)
    joined ending rest (w.text ++ (if lacking then ending :: text else text)) (main || !w.aside)
      (side || w.aside)

/-- How far the input has been edited. -/
structure Bench where
  space : List Char
  /-- The line at work has an end in the input. -/
  ended : Bool
  kept : List Char
  keptEnded : Bool
  /-- How many lines have been taken. -/
  number : Nat
  /-- The lines that have not been taken, each with its end or without. -/
  rest : List (List Char × Bool)
  /-- What is written, the last part first. -/
  written : List Writing
  /-- What is written behind the round. -/
  behind : List Writing
  /-- A substitution was made in this round. -/
  replaced : Bool
  /-- The expression that was used last. -/
  used : Option Expression
  /-- What is written to files, the last part first. -/
  saved : List (String × List Writing)
  /-- How many lines have been read of files. -/
  taken : List (String × Nat)
  /-- The edits whose lines have started, with the line on which they end if that is known. -/
  inside : List (Nat × Option Nat)

namespace Bench

/-- The line is the last one. -/
def isLast (b : Bench) : Bool := b.rest.isEmpty

/-- Writes a part. -/
def write (b : Bench) (w : Writing) : Bench := { b with written := w :: b.written }

/-- Writes a line, with its end. -/
def writeLine (b : Bench) (ending : Char) (text : List Char) : Bench :=
  b.write (.plain (text ++ [ending]))

/-- The work space as it is written: a line that has no end in the input is written without one. -/
def line (b : Bench) (ending : Char) : Writing :=
  ⟨if b.ended then b.space ++ [ending] else b.space, !b.ended, false⟩

/-- Writes the work space. -/
def print (b : Bench) (ending : Char) : Bench := b.write (b.line ending)

/-- Ends a round: what was kept for its end is written. -/
def flush (b : Bench) : Bench := { b with written := b.behind.reverse ++ b.written, behind := [] }

/-- Takes the next line, if there is one, behind a front. -/
def take? (b : Bench) (front : List Char) : Option Bench :=
  match b.rest with
  | [] => none
  | (line, ended) :: rest =>
    some { b with space := front ++ line, ended := ended, number := b.number + 1, rest := rest }

/-- A part for a file, or for the output if that is its name. -/
def save (b : Bench) (name : String) (w : Writing) : Bench :=
  if name = "/dev/stdout" then b.write { w with aside := true }
  else
    let old := (b.saved.lookup name).getD []
    { b with saved := (name, w :: old) :: b.saved.filter fun f => f.1 != name }

end Bench

/-- The address names the line that is at work. -/
def names (b : Bench) : Address → Bool
  | .number n => b.number = n
  | .every first step =>
    if step = 0 then b.number = first else first ≤ b.number && (b.number - first) % step = 0
  | .last => b.isLast
  | .fitting e => (e.or b.used).any fun e => e.regex.isIn (e.view b.space)
  | .offset _ => false
  | .multiple _ => false

/-- The bench after an address was looked at. -/
def looked (b : Bench) : Option Address → Bench
  | some (.fitting (some e)) => { b with used := some e }
  | _ => b

/-- The state of a range behind the line that starts it: its last line if that is known; nothing if
it has already ended. -/
def opened? (b : Bench) : Address → Option (Option Nat)
  | .number n => if b.number < n then some (some n) else none
  | .every first step =>
    if step = 0 then if b.number < first then some (some first) else none
    else if names b (.every first step) then none
    else some none
  | .offset n => if n = 0 then none else some (some (b.number + n))
  | .multiple n => if n = 0 then none else some (some ((b.number / n + 1) * n))
  | .last => if b.isLast then none else some none
  | .fitting _ => some none

/-- The range ends with the line that is at work. -/
def closes (b : Bench) (last : Option Nat) (stop : Address) : Bool :=
  match last with
  | some n => n ≤ b.number
  | none => names b stop

/-- The edit with a number is about the line that is at work; and the bench behind that. -/
def meets (e : Edit) (i : Nat) (b : Bench) : Bool × Bench :=
  let b := looked b (if (b.inside.lookup i).isSome then e.stop else e.start)
  let others := b.inside.filter fun s => s.1 != i
  match e.start, e.stop with
  | none, _ => (!e.negated, b)
  | some start, none => (names b start != e.negated, b)
  | some start, some stop =>
    let zero := match start with
      | .number 0 => decide (b.number = 1)
      | _ => false
    match b.inside.lookup i, zero with
    | some last, _ =>
      -- a range whose last line has gone by is over, unless the line starts another one
      if last.any (· < b.number) then (e.negated, { b with inside := others })
      else (!e.negated, if closes b last stop then { b with inside := others } else b)
    | none, true =>
      (!e.negated, if names b stop then b else { b with inside := (i, none) :: others })
    | none, false =>
      if !names b start then (e.negated, b)
      else
        match opened? b stop with
        | some last => (!e.negated, { b with inside := (i, last) :: others })
        | none => (!e.negated, b)

/-- How a round ends. -/
inductive Round where
  | finished
  /-- Nothing is written of the work space. -/
  | dropped
  /-- The rest of the work space is edited again. -/
  | again
  /-- No more is edited; a line without its end gets it if `completes`. -/
  | left (code : Nat) (prints completes : Bool)

/-- The first line of a text, and what is behind it. -/
def firstLine (ending : Char) (cs : List Char) : List Char × Option (List Char) :=
  let line := cs.takeWhile (· != ending)
  (line, if line.length = cs.length then none else some (cs.drop (line.length + 1)))

/-- The number of the edit behind the one that closes a group, with `depth` groups open. -/
def behindGroup : Nat → Nat → List Edit → Nat
  | i, _, [] => i
  | i, depth, e :: rest =>
    match e.action with
    | .openGroup => behindGroup (i + 1) (depth + 1) rest
    | .closeGroup => if depth = 0 then i + 1 else behindGroup (i + 1) (depth - 1) rest
    | _ => behindGroup (i + 1) depth rest

/-- The number of the edit that has a label, or of the end. -/
def labelled (edits : List Edit) (name : String) : Nat :=
  if name.isEmpty then edits.length
  else edits.findIdx fun e => match e.action with
    | .label n => n = name
    | _ => false

/-- A character in a form that can be seen. -/
def visible (c : Char) : List Char :=
  match c with
  | '\\' => ['\\', '\\']
  | c => if Names.isShown c then [c] else Names.escaped c

/-- A line in a form that can be seen, in pieces of at most 69 characters. -/
def visibleLines : Nat → List (List Char) → List Char → List Char
  | _, [], line => line ++ ['$']
  | width, piece :: rest, line =>
    if width < line.length + piece.length then
      line ++ '\\' :: '\n' :: visibleLines width rest piece
    else visibleLines width rest (line ++ piece)

/-- The lines of a text, each with its end or without. -/
def linesOf (ending : Char) (cs : List Char) : List (List Char × Bool) :=
  let lines := cs.splitOn ending
  lines.dropLast.map (fun l => (l, true)) ++
    ((lines.getLast?).filter fun l => !l.isEmpty).toList.map fun l => (l, false)

/-- What is around the edits. -/
structure Setting where
  /-- Lines are not written unasked. -/
  quiet : Bool
  /-- What ends a line. -/
  ending : Char
  /-- How wide the lines are in which every character is shown; zero stands for no limit. -/
  width : Nat
  /-- The title of the input. -/
  title : String
  /-- The contents of other files. -/
  lookup : String → Option (List UInt8)

/-- What an action does next: it goes on with an edit, or ends the round. -/
abbrev Course := Except Round Nat

/-- Does what the edit with a number says. -/
def act (edits : List Edit) (w : Setting) (i : Nat) (b : Bench) (a : EditAction) :
    Course × Bench :=
  let goOn := fun (b : Bench) => ((.ok (i + 1) : Course), b)
  -- a text with the end of its last line, which may be another one here
  let inserted := fun (text : List Char) =>
    if text.isEmpty then b else b.writeLine w.ending text.dropLast
  match a with
  | .openGroup => goOn b
  | .closeGroup => goOn b
  | .label _ => goOn b
  | .print => goOn (b.print w.ending)
  | .printFirst => goOn (b.writeLine w.ending (firstLine w.ending b.space).1)
  | .number => goOn (b.writeLine w.ending (Nat.repr b.number).toList)
  | .delete => (.error .dropped, b)
  | .deleteFirst =>
    match (firstLine w.ending b.space).2 with
    | none => (.error .dropped, b)
    | some rest => (.error .again, { b with space := rest })
  | .quit code prints => (.error (.left code prints prints), b)
  | .next =>
    match b.take? [] with
    | none => (.error (.left 0 true false), b)
    | some next =>
      let b := (if w.quiet then b else b.print w.ending).flush
      goOn { next with written := b.written, behind := [] }
  | .join =>
    match b.take? (b.space ++ [w.ending]) with
    | none => (.error (.left 0 true false), b)
    | some next => goOn { next.flush with space := next.space }
  | .keep adds =>
    goOn { b with kept := if adds then b.kept ++ w.ending :: b.space
      else b.space, keptEnded := b.ended }
  | .fetch adds =>
    goOn { b with space := if adds then b.space ++ w.ending :: b.kept
      else b.kept, ended := b.keptEnded }
  | .exchange =>
    goOn { b with space := b.kept, ended := b.keptEnded, kept := b.space, keptEnded := b.ended }
  | .translate table => goOn { b with space := b.space.map fun c => (table.lookup c).getD c }
  | .insert text => goOn (inserted text)
  | .append text => goOn { b with behind := b.behind ++ [.plain text] }
  | .change text => (.error .dropped, if (b.inside.lookup i).isSome then b else inserted text)
  | .show width =>
    let width := width.getD w.width
    let pieces := b.space.map visible
    goOn (b.writeLine w.ending (if width = 0 then pieces.flatten ++ ['$']
      else visibleLines (width - 1) pieces []))
  | .clear => goOn { b with space := [] }
  | .title => goOn (b.writeLine w.ending (octetsOf w.title))
  | .readFile name =>
    goOn { b with behind := b.behind ++ [.plain (octets ((w.lookup name).getD []))] }
  | .readLine name =>
    let count := (b.taken.lookup name).getD 0
    match ((w.lookup name).map fun bytes => linesOf w.ending (octets bytes)).bind fun lines =>
        lines[count]? with
    | none => goOn b
    | some (text, ended) => goOn { b with
        behind := b.behind ++ [.plain (if ended then text ++ [w.ending] else text)]
        taken := (name, count + 1) :: b.taken.filter fun t => t.1 != name }
  | .writeFile name => goOn (b.save name (b.line w.ending))
  | .writeFirst name =>
    goOn (b.save name (.plain ((firstLine w.ending b.space).1 ++ [w.ending])))
  | .substitute s =>
    match s.expression.or b.used with
    | none => goOn b
    | some e =>
      let b := { b with used := some e }
      match substituted? s e b.space with
      | none => goOn b
      | some text =>
        let b := { b with space := text, replaced := true }
        let b := if s.prints then b.print w.ending else b
        goOn (match s.target with
          | some name => b.save name (b.line w.ending)
          | none => b)
  | .jump after name =>
    if after = some !b.replaced then goOn b
    else (.ok (labelled edits name), if after.isSome then { b with replaced := false } else b)

/-- Goes through the edits of a round from a number on, in at most `fuel` steps. -/
def round (edits : List Edit) (w : Setting) : Nat → Nat → Bench → Round × Bench
  | 0, _, b => (.left 1 false false, b)
  | fuel + 1, i, b =>
    match edits[i]? with
    | none => (.finished, b)
    | some e =>
      match e.meets i b with
      | (false, b) =>
        let next := match e.action with
          | .openGroup => behindGroup (i + 1) 0 (edits.drop (i + 1))
          | _ => i + 1
        round edits w fuel next b
      | (true, b) =>
        match act edits w i b e.action with
        | (.ok next, b) => round edits w fuel next b
        | (.error ending, b) => (ending, b)

/-- How many steps a round may take. -/
def maxSteps : Nat := 100000

/-- Runs rounds, at most `fuel` of them: the exit code and the bench behind them. -/
def rounds (edits : List Edit) (w : Setting) : Nat → Bool → Bench → Nat × Bench
  | 0, _, b => (1, b)
  | fuel + 1, again, b =>
    match if again then some b else b.take? [] with
    | none => (0, b)
    | some b =>
      let shown := fun (b : Bench) => (if w.quiet then b else b.print w.ending).flush
      match round edits w maxSteps 0 { b with replaced := false } with
      | (.finished, b) => rounds edits w fuel false (shown b)
      | (.dropped, b) => rounds edits w fuel false b.flush
      | (.again, b) => rounds edits w fuel true b.flush
      | (.left code prints completes, b) =>
        let b := if prints then shown b else b
        (code, if completes then b.write (.plain []) else b)

/-- The files that edits write. -/
def targets (edits : List Edit) : List String :=
  edits.filterMap fun e => match e.action with
    | .writeFile name => some name
    | .writeFirst name => some name
    | .substitute s => s.target
    | _ => none

/-- A jump to a label that is not there. -/
def strayJump? (edits : List Edit) : Option String :=
  edits.findSome? fun e => match e.action with
    | .jump _ name => if !name.isEmpty && labelled edits name = edits.length then some name
        else none
    | _ => none

/-- What editing comes to. -/
structure Outcome where
  code : Nat
  bytes : List UInt8
  /-- What is written to other files. -/
  files : List (String × List UInt8)

/-- **Edits a text.** -/
def apply (w : Setting) (edits : List Edit) (bytes : List UInt8) : Outcome :=
  let lines := linesOf w.ending (octets bytes)
  let bench : Bench := {
    space := []
    ended := true
    kept := []
    keptEnded := true
    number := 0
    rest := lines
    written := []
    behind := []
    replaced := false
    used := none
    saved := ((targets edits).filter (· != "/dev/stdout")).eraseDups.map fun n => (n, [])
    taken := []
    inside := [] }
  let (code, b) := rounds edits w (bytes.length + lines.length + 2) false bench
  let text := fun (written : List Writing) => ofOctets (joined w.ending written [] false false)
  { code := code
    bytes := text b.written
    files := b.saved.map fun f => (f.1, text f.2) }

end Arbor.Shell.Program.Edit
