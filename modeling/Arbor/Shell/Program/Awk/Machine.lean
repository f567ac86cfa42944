import Arbor.Shell.Program.Awk.Script
import Arbor.Shell.Program.Awk.Value
import Arbor.Shell.Program.Basic
import Arbor.Text.Utf8

/-! # The machine of a program

Variables, the record that is at work with its fields, the inputs that are open, and what has been
written. What is written to the output waits until another program writes to it, or until the
end. -/

namespace Arbor.Shell.Program.Awk

/-- Where a variable is. -/
inductive Ref where
  | global (name : String)
  /-- A place on the stack of the functions that run. -/
  | stacked (index : Nat)

/-- The elements of an array, the latest first. -/
abbrev Elements := List (List Char × Value)

/-- What a variable holds. -/
inductive Cell where
  /-- Nothing yet: it may become a value or an array. -/
  | blank
  | value (v : Value)
  | array (es : Elements)
  /-- Another variable, which may become an array. -/
  | link (r : Ref)

/-- Something that is written to: a file, or a command with its input so far. -/
inductive Writer where
  | file
  | command (chunks : List (List Char))

/-- The state of a program. -/
structure Machine where
  globals : List (String × Cell)
  stack : Array Cell
  /-- The variables of the function that runs. -/
  locals : List (String × Nat)
  record : List Char
  fields : List Value
  /-- What is left of the file that is read. -/
  left : Option (List Char)
  /-- The number of the next argument. -/
  argument : Nat
  /-- Some input was opened. -/
  started : Bool
  /-- What is left of other files and of the output of commands. -/
  readers : List (String × List Char)
  writers : List (String × Writer)
  /-- What waits to be written, the last part first. -/
  waiting : List (List Char)
  /-- The rules with a span that has begun. -/
  spans : List Nat
  exitCode : Nat
  seed : Nat

/-- Why statements are not gone through to their end. -/
inductive Jump where
  | next
  | nextFile
  | exit
  | leave
  | again
  | given (v : Value)
  /-- The program ends with a message. -/
  | fault (text : String)

/-- A part of the run of a program. -/
abbrev Act := ExceptT Jump (StateT Machine Sh)

namespace Act

/-- A part of the run of the shell around. -/
def sh {α : Type} (act : Sh α) : Act α := ExceptT.lift (StateT.lift act)

/-- Time is up. -/
def overrun {α : Type} : Act α := sh (throw .overrun)

/-! ### Variables -/

/-- Where the variable of a name is. -/
def ref (name : String) : Act Ref := do
  match (← get).locals.lookup name with
  | some i => return .stacked i
  | none => return .global name

/-- What a variable holds. -/
def cell (r : Ref) : Act Cell := do
  let m ← get
  match r with
  | .global name => return (m.globals.lookup name).getD .blank
  | .stacked i => return (m.stack[i]?).getD .blank

/-- Lets a variable hold something. -/
def setCell (r : Ref) (c : Cell) : Act Unit :=
  modify fun m => match r with
    | .global name => { m with globals := (name, c) :: m.globals.filter fun g => g.1 != name }
    | .stacked i => { m with stack := m.stack.setIfInBounds i c }

/-- The value of a global variable. -/
def globalValue (name : String) : Act Value := do
  match (← get).globals.lookup name with
  | some (.value v) => return v
  | _ => return .unset

/-- Sets a global variable. -/
def setGlobal (name : String) (v : Value) : Act Unit := setCell (.global name) (.value v)

/-- The text of a value, by the format that a variable holds. -/
def textBy (formatName : String) (v : Value) : Act (List Char) := do
  match v with
  | .number x =>
    match ← globalValue formatName with
    | .text cs => return numberText cs x
    | .input cs => return numberText cs x
    | _ => return numberText "%.6g".toList x
  | v => return v.toText []

/-- The text of a value. -/
def text (v : Value) : Act (List Char) := textBy "CONVFMT" v

/-- The text of a global variable. -/
def globalText (name : String) : Act (List Char) := do text (← globalValue name)

/-- Ends the program with a message about where it was. -/
def failAt {α : Type} (what : String) : Act α := do
  let title := String.ofList (← globalText "FILENAME")
  let numbers ← ["FNR", "NR"].mapM fun name => do
    return " " ++ name ++ "=" ++ String.ofList (numberText [] (← globalValue name).toNumber)
  throw (.fault ("run time error: " ++ what ++ "\n\tFILENAME=\"" ++ title ++ "\"" ++
    String.join numbers))

/-- The variable that links lead to. -/
def target (r : Ref) : Nat → Act Ref
  | 0 => return r
  | fuel + 1 => do
    match ← cell r with
    | .link r => target r fuel
    | _ => return r

/-- How deep links go at most. -/
def maxLinks : Nat := 10000

/-- The elements of a variable as an array. -/
def elements (r : Ref) : Act Elements := do
  match ← cell (← target r maxLinks) with
  | .array es => return es
  | .value _ => failAt "scalar used as an array"
  | _ => return []

/-- Lets a variable be an array of some elements. -/
def setElements (r : Ref) (es : Elements) : Act Unit := do
  let place ← target r maxLinks
  match ← cell place with
  | .value _ => failAt "scalar used as an array"
  | _ => setCell place (.array es)

/-! ### Fields -/

/-- The words between blanks. -/
def wordsOf (cs : List Char) : List (List Char) :=
  (cs.splitOnP fun c => c == ' ' || c == '\t' || c == '\n').filter fun w => !w.isEmpty

/-- The pieces between the matches of an expression. -/
def piecesBetween (text : Array Char) : Nat → List (Nat × Nat × Regex.Groups) → List (List Char)
  | pos, [] => [Regex.between text pos text.size]
  | pos, (start, stop, _) :: rest =>
    if start = stop then piecesBetween text pos rest
    else Regex.between text pos start :: piecesBetween text stop rest

/-- The pieces between the matches of an expression in a text. -/
def splitByRegex (r : Regex) (cs : List Char) : List (List Char) :=
  piecesBetween cs.toArray 0 (r.occurrences cs.toArray)

/-- The expression of a text. -/
def regexOf (cs : List Char) : Act Regex := do
  match readRegex cs with
  | .ok r => return r
  | .error text => throw (.fault ("line 1: " ++ text))

/-- The pieces of a text between separators: a blank stands for any blanks, no separator for none
between characters, a single character for itself, and all else for an expression. With `byLines`
line ends divide too. -/
def split (separator : List Char) (byLines : Bool) (cs : List Char) : Act (List (List Char)) := do
  if cs.isEmpty then return []
  match separator with
  | [' '] => return wordsOf cs
  | [] => return cs.map fun c => [c]
  | [x] =>
    if x == '\\' then return cs.splitOn '\\'
    else return cs.splitOnP fun c => c == x || (byLines && c == '\n')
  | separator => do
    let r ← regexOf separator
    return if byLines then (cs.splitOn '\n').flatMap (splitByRegex r) else splitByRegex r cs

/-- Takes a record apart. -/
def setRecord (cs : List Char) : Act Unit := do
  let paragraphs := (← globalText "RS").isEmpty
  let pieces ← split (← globalText "FS") paragraphs cs
  modify fun m => { m with record := cs, fields := pieces.map Value.input }

/-- Puts the record together from its fields. -/
def joinFields : Act Unit := do
  let between ← globalText "OFS"
  let texts ← (← get).fields.mapM text
  modify fun m => { m with record := between.intercalate texts }

/-- Sets the number of fields. -/
def setFieldCount (n : Nat) : Act Unit := do
  modify fun m => { m with
    fields := m.fields.take n ++ List.replicate (n - m.fields.length) (Value.text []) }
  joinFields

/-- The value of a field. -/
def field (n : Nat) : Act Value := do
  let m ← get
  if n = 0 then return .input m.record else return (m.fields[n - 1]?).getD .unset

/-- Sets a field. -/
def setField (n : Nat) (v : Value) : Act Unit := do
  if n = 0 then setRecord (← text v)
  else
    if (← get).fields.length < n then setFieldCount n
    modify fun m => { m with fields := m.fields.set (n - 1) v }
    joinFields

/-- The value of a variable. -/
def value (r : Ref) : Act Value := do
  match r with
  | .global "NF" => return .ofNat (← get).fields.length
  | r =>
    match ← cell r with
    | .value v => return v
    | .array _ => failAt "array used as a scalar"
    | _ => return .unset

/-- A number as a count; a negative one is none. -/
def countOf (x : Float) : Nat := (truncated 0 0x7FFFFFFF x).toNat

/-- Sets a variable. -/
def setValue (r : Ref) (v : Value) : Act Unit := do
  match r with
  | .global "NF" => setFieldCount (countOf v.toNumber)
  | r =>
    match ← cell r with
    | .array _ => failAt "array used as a scalar"
    | _ => setCell r (.value v)

/-! ### Output -/

/-- Writes what has waited. -/
def flush : Act Unit := do
  let bytes := ofOctets (← get).waiting.reverse.flatten
  modify fun m => { m with waiting := [] }
  if !bytes.isEmpty then sh (Sh.emit 1 (.ofBytes bytes))

/-- Runs a command line, with an input of its own if there is one. -/
def command (launcher : Launcher) (input : Option (List Char)) (line : String) : Sh Unit := do
  let act := Sh.isolated do
    match input with
    | some cs => Sh.openInput 0 (.pipe (.ofBytes (ofOctets cs)))
    | none => pure ()
    let _ ← launcher ["/bin/sh", "-c", line]
  try act
  catch
    | .killed signal => Sh.finish (256 + signal)
    | stop => throw stop

/-- The text of bytes. -/
def decoded (cs : List Char) : String := String.ofList (Text.decode (ofOctets cs))

/-- Runs a command line, and returns its exit code. -/
def runLine (launcher : Launcher) (input : Option (List Char)) (line : String) : Act Nat := do
  flush
  sh (do
    command launcher input line
    return (← get).status)

/-- Opens a file to be written, unless it is open. -/
def openFile (append : Bool) (name : String) : Act Unit := do
  if (← get).writers.any fun w => w.1 = name then return ()
  let outcome ← sh (do
    let path ← Sh.locate name
    let s ← get
    if append && s.files.isFile path then return Except.ok ()
    match s.files.writeText path "" with
    | .ok files => do
      set { s with files := files }
      return .ok ()
    | .error e => return .error e)
  match outcome with
  | .ok () => modify fun m => { m with writers := m.writers ++ [(name, .file)] }
  | .error e => throw (.fault ("cannot open \"" ++ name ++ "\" for output (" ++ e.reason ++ ")"))

/-- Writes to a file. -/
def writeFile (append : Bool) (name : List Char) (cs : List Char) : Act Unit := do
  let name := decoded name
  if name = "/dev/stdout" || name = "-" then modify fun m => { m with waiting := cs :: m.waiting }
  else if name = "/dev/stderr" then sh (Sh.emit 2 (.ofBytes (ofOctets cs)))
  else
    openFile append name
    sh (do
      let path ← Sh.locate name
      modify fun s => { s with files := Sh.appendFile s.files path (ofOctets cs) })

/-- Writes to a command, which is run when it is closed. -/
def writeCommand (line : List Char) (cs : List Char) : Act Unit := do
  let line := decoded line
  match (← get).writers.lookup line with
  | some (.command chunks) => modify fun m => { m with
      writers := m.writers.map fun w => if w.1 = line then (line, .command (cs :: chunks)) else w }
  | _ => do
    flush
    modify fun m => { m with writers := m.writers ++ [(line, .command [cs])] }

/-- Closes a file or a command: its exit code, if it was open. -/
def close (launcher : Launcher) (name : String) : Act (Option Nat) := do
  let m ← get
  let wasRead := m.readers.any fun r => r.1 = name
  set { m with
    readers := m.readers.filter fun r => r.1 != name
    writers := m.writers.filter fun w => w.1 != name }
  match m.writers.lookup name with
  | some (.command chunks) => sh (do
      command launcher (some chunks.reverse.flatten) name
      return some (← get).status)
  | some .file => return some 0
  | none => return if wasRead then some 0 else none

/-- Closes all that is written to, and writes what has waited. -/
def closeAll (launcher : Launcher) : Act Unit := do
  for (name, _) in (← get).writers do
    let _ ← close launcher name
  flush

/-! ### Input -/

/-- The first record of a text, and the rest. Records end with a separator: a line end or another
character, empty lines if there is none, else a match of an expression. -/
def firstRecord (separator : List Char) (cs : List Char) :
    Act (Option (List Char × List Char)) := do
  match separator with
  | [x] =>
    if cs.isEmpty then return none
    let record := cs.takeWhile (· != x)
    return some (record, cs.drop (record.length + 1))
  | [] =>
    let cs := cs.dropWhile (· == '\n')
    if cs.isEmpty then return none
    let text := cs.toArray
    let ends := (Regex.followed (.one (.exactly '\n')) (.one (.exactly '\n'))).find? text 0
    let stop := (ends.map fun e => e.1).getD cs.length
    let record := cs.take stop
    let record := if record.getLast? = some '\n' then record.dropLast else record
    return some (record, (cs.drop stop).dropWhile (· == '\n'))
  | separator =>
    if cs.isEmpty then return none
    let r ← regexOf separator
    match (r.occurrences cs.toArray).find? fun o => o.1 < o.2.1 with
    | some (start, stop, _) => return some (cs.take start, cs.drop stop)
    | none => return some (cs, [])

/-- The name and the value of an argument that sets a variable. -/
def assignment? (cs : List Char) : Option (String × List Char) :=
  let name := cs.takeWhile fun c => startsName c || c.isDigit
  if name.head?.any startsName && (cs.drop name.length).head? = some '=' then
    some (String.ofList name, cs.drop (name.length + 1))
  else none

/-- Sets a variable as an argument says. -/
def assign (name : String) (cs : List Char) : Act Unit :=
  setGlobal name (.input (unescaped (cs.length + 1) cs))

/-- Opens an input. -/
def openInput (name : List Char) : Act Unit := do
  let content ← sh (do
    match ← source (decoded name) with
    | .ok s => return Except.ok (← whole s)
    | .error e => return .error e)
  match content with
  | .ok bytes => do
    modify fun m => { m with left := some (octets bytes), started := true }
    setGlobal "FNR" (.number 0)
    setGlobal "FILENAME" (.text name)
  | .error .isFolder => throw (.fault ("read error (" ++ OsError.isFolder.reason ++ ")"))
  | .error e => throw (.fault ("cannot open \"" ++ decoded name ++ "\" (" ++ e.reason ++ ")"))

/-- Opens the next input, if there is one: the next argument that names a file, or the standard
input if none does. -/
def openNext : Nat → Act Bool
  | 0 => return false
  | fuel + 1 => do
    let m ← get
    let count := countOf (← globalValue "ARGC").toNumber
    if m.argument < count then
      set { m with argument := m.argument + 1 }
      let es ← elements (.global "ARGV")
      let word ← text ((es.lookup (Nat.repr m.argument).toList).getD .unset)
      if word.isEmpty then openNext fuel
      else
        match assignment? word with
        | some (name, cs) => do
          assign name cs
          openNext fuel
        | none => do
          openInput word
          return true
    else if m.started then return false
    else
      openInput ['-']
      return true

/-- The next record of the input, if there is one. -/
def nextRecord : Nat → Act (Option (List Char))
  | 0 => return none
  | fuel + 1 => do
    match (← get).left with
    | some cs =>
      match ← firstRecord (← globalText "RS") cs with
      | some (record, rest) => do
        modify fun m => { m with left := some rest }
        for name in ["NR", "FNR"] do
          setGlobal name (.number ((← globalValue name).toNumber + 1))
        return some record
      | none => do
        modify fun m => { m with left := none }
        nextRecord fuel
    | none => if ← openNext (fuel + 1) then nextRecord fuel else return none

/-- How many inputs there may be. -/
def maxInputs : Nat := 10000

/-- The next record of something that is opened by `start` under a name. -/
def nextOf (name : String) (start : Act (Option (List Char))) :
    Act (Option (Option (List Char))) := do
  let content ← match (← get).readers.lookup name with
    | some cs => pure (some cs)
    | none => start
  match content with
  | none => return none
  | some cs => do
    let first ← firstRecord (← globalText "RS") cs
    let rest := (first.map Prod.snd).getD []
    modify fun m => { m with readers := (name, rest) :: m.readers.filter fun r => r.1 != name }
    return some (first.map Prod.fst)

/-- The next record of a file; nothing at all if it cannot be read. -/
def nextOfFile (name : List Char) : Act (Option (Option (List Char))) :=
  nextOf (decoded name) (sh (do
    match ← source (decoded name) with
    | .ok s => return some (octets (← whole s))
    | .error _ => return none))

/-- The next record of what a command writes. -/
def nextOfCommand (launcher : Launcher) (line : List Char) : Act (Option (Option (List Char))) :=
  nextOf (decoded line) (do
    flush
    let out ← sh (do whole (← Sh.captured (command launcher none (decoded line))))
    return some (octets out))

end Act

end Arbor.Shell.Program.Awk
