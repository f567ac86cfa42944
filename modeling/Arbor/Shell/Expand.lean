import Arbor.Shell.Arithmetic
import Arbor.Shell.Pattern
import Arbor.Shell.State
import Arbor.Text.Utf8

/-! # Words when a command runs

The parts of a word are filled in, what was not quoted is split at separators, and what then holds
live pattern characters is replaced by the file names that it matches. -/

namespace Arbor.Shell

namespace Sh

/-- The characters that separate fields: blanks, unless the shell is told otherwise. -/
def separators (s : State) : List Char := ((s.bindings.get? "IFS").getD " \t\n").toList

/-- The arguments as one text, between the first of the separators. -/
def allArguments (s : State) : String :=
  String.intercalate (String.ofList ((separators s).take 1)) s.arguments

/-- The letters of the options that are set. -/
def optionLetters (o : Settings) : String :=
  String.join [if o.strict then "e" else "", if o.unmatched then "f" else "",
    if o.demanding then "u" else "", if o.traced then "x" else ""]

/-- The value of a parameter, if it is set. -/
def param? (s : State) (name : String) : Option String :=
  match name with
  | "?" => some (Nat.repr s.status)
  | "$" => some (Nat.repr s.shell)
  | "#" => some (Nat.repr s.arguments.length)
  | "@" => some (String.intercalate " " s.arguments)
  | "*" => some (allArguments s)
  | "!" => s.lastJob.map Nat.repr
  | "-" => some (optionLetters s.settings)
  | "0" => some s.name
  | name =>
    match name.toNat? with
    | some n => s.arguments[n - 1]?
    | none => s.bindings.get? name

/-- Bytes as a text, without the line ends at its end. -/
def outputText (bytes : List UInt8) : String :=
  String.ofList ((Text.decode bytes).reverse.dropWhile (· == '\n')).reverse

/-- Stops a shell whose script of some lines cannot be read. -/
def badScript (lines : Nat) (e : SyntaxError) : Sh Unit := do
  modify fun s => { s with line := e.line.getD lines }
  tell ("Syntax error: " ++ e.text)
  throw (.exit 2)

/-- The longest start of some lines that is a script of its own. -/
def readableStart (lines : List (List Char)) : Script :=
  let starts := (List.range lines.length).map fun n => ['\n'].intercalate (lines.take n)
  (starts.reverse.findSome? fun cs => (Script.parse cs).toOption).getD .nothing

/-- Runs the script of a text by `run`. What stands on the lines before an error is run. -/
def runText (run : Script → Sh Unit) (cs : List Char) : Sh Unit := do
  match Script.parse cs with
  | .ok script => run script
  | .error e => do
    let lines := cs.splitOn '\n'
    run (readableStart lines)
    badScript lines.length e

/-- The output of a command as a text. -/
def outputOf (run : Script → Sh Unit) (cs : List Char) : Sh String := do
  let out ← captured (runText run cs)
  if out.isEndless then throw .overrun
  return outputText out.start

/-- Stops the shell with a message of one of its commands. -/
def refuse {α : Type} (text : String) : Sh α := do
  report text
  throw (.exit 2)

/-- Stops the shell with a message about what it reads. -/
def stopAt {α : Type} (text : String) : Sh α := do
  tell text
  throw (.exit 2)

/-- Sets a variable, in the name of a command. A frozen one stops the shell. -/
def setBy (command name value : String) : Sh Unit := do
  if (← get).frozen.contains name then
    if command.isEmpty then stopAt (name ++ ": is read only")
    else refuse (command ++ name ++ ": is read only")
  modify fun s => { s with bindings := s.bindings.put name value }

/-- Sets a variable. -/
def setVariable (name value : String) : Sh Unit := setBy "" name value

/-- The fields of a word so far: those that are complete, and the one that is being written. -/
structure Fields where
  complete : List (List Mark)
  current : Option (List Mark)
  /-- A blank has just ended a field; a separator that follows ends it once more for nothing. -/
  blank : Bool

namespace Fields

/-- No fields. -/
def none : Fields := { complete := [], current := Option.none, blank := false }

/-- Adds characters to the current field. -/
def add (f : Fields) (marks : List Mark) : Fields :=
  { f with current := some (f.current.getD [] ++ marks), blank := false }

/-- Ends the current field, if there is one. -/
def cut (f : Fields) : Fields :=
  match f.current with
  | Option.none => f
  | some marks => { f with complete := f.complete ++ [marks], current := Option.none }

/-- Takes in a separator. Blanks end a field; any other separator ends one also if it is empty. -/
def separate (f : Fields) (c : Char) : Fields :=
  if c == ' ' || c == '\t' || c == '\n' then
    { f.cut with blank := f.blank || f.current.isSome }
  else if f.current.isNone && f.blank then { f with blank := false }
  else { complete := f.complete ++ [f.current.getD []], current := Option.none, blank := false }

/-- Adds the characters of a value, cut at separators. -/
def addSplit (f : Fields) (separators cs : List Char) : Fields :=
  cs.foldl (fun f c => if separators.contains c then f.separate c else f.add [(c, true)]) f

/-- The texts of the fields as one. -/
def text (f : Fields) : String := String.intercalate " " (f.cut.complete.map Pattern.text)

end Fields

/-- Adds a value to fields. -/
def addValue (f : Fields) (quoted : Bool) (value : String) : Sh Fields := do
  if quoted then return f.add (Pattern.literal value.toList)
  else return f.addSplit (separators (← get)) value.toList

/-- The value of a parameter that may be unset, unless the shell is demanding. -/
def valueOf (name : String) : Sh String := do
  let s ← get
  match param? s name with
  | some value => return value
  | none => if s.settings.demanding then stopAt (name ++ ": parameter not set") else return ""

/-- The value without what a pattern matches at one of its ends. -/
def trim (atEnd longest : Bool) (pattern : List Mark) (value : String) : String :=
  let cs := value.toList
  let lengths := List.range (cs.length + 1)
  let cut := fun (n : Nat) => if atEnd then cs.drop (cs.length - n) else cs.take n
  match (if longest then lengths.reverse else lengths).find? fun n =>
      Pattern.fitsChars pattern (cut n) with
  | some n => String.ofList (if atEnd then cs.take (cs.length - n) else cs.drop n)
  | none => value

/-- Assigns variables. -/
def assignAll (values : Table Int) : Sh Unit :=
  values.forM fun (name, value) => setVariable name (toString value)

/-- Adds the parts of a word to fields. -/
def addParts (run : Script → Sh Unit) : Nat → Word → Fields → Sh Fields
  | 0, _, f => return f
  | _ + 1, [], f => return f
  | fuel + 1, .text [] true :: .param "@" true :: rest, f => do
    -- quotes around no arguments make no field
    match (← get).arguments with
    | [] => addParts run fuel rest f
    | _ => addParts run fuel (.param "@" true :: rest) f
  | fuel + 1, part :: rest, f => do
    let f ← match part with
      | .text cs true => pure (f.add (Pattern.literal cs))
      | .text cs false => pure (f.add (cs.map fun c => (c, true)))
      | .param "@" true => do
        match (← get).arguments with
        | [] => pure f
        | first :: more =>
          more.foldlM (fun f v => addValue f.cut true v) (← addValue f true first)
      | .param name quoted => do addValue f quoted (← valueOf name)
      | .size name quoted => do addValue f quoted (Nat.repr (← valueOf name).utf8ByteSize)
      | .fallback name sign colon word quoted => do
        let value := param? (← get) name
        let isSet := value.any fun v => !(colon && v.isEmpty)
        match isSet, sign with
        | true, '+' => addParts run fuel word f
        | false, '+' => pure f
        | true, _ => addValue f quoted (value.getD "")
        | false, '=' => do
          let text := (← addParts run fuel word .none).text
          setVariable name text
          addValue f quoted text
        | false, '?' => do
          let text := (← addParts run fuel word .none).text
          let plain := if colon then "parameter not set or null" else "parameter not set"
          stopAt (name ++ ": " ++ if text.isEmpty then plain else text)
        | false, _ => addParts run fuel word f
      | .trimmed name atEnd longest pattern quoted => do
        let value ← valueOf name
        let marks := (← addParts run fuel pattern .none).cut.complete.flatten
        addValue f quoted (trim atEnd longest marks value)
      | .output script quoted => do addValue f quoted (← outputOf run script)
      | .sum expression quoted => do
        let text := (← addParts run fuel expression .none).text
        match Arithmetic.value (param? (← get)) text.toList with
        | .ok (n, assigned) => do
          assignAll assigned
          addValue f quoted (toString n)
        | .error e => stopAt (e.message text)
      | .unknown => stopAt "Bad substitution"
    addParts run fuel rest f

/-- How many parts a word can have with those inside of them. -/
def partFuel (w : Word) : Nat := 1000 + w.length

/-- The home folders of users. -/
def homes : List (String × String) :=
  [("root", "/root"), ("daemon", "/usr/sbin"), ("bin", "/bin"), ("sys", "/dev"), ("sync", "/bin"),
    ("games", "/usr/games"), ("mail", "/var/mail"), ("www-data", "/var/www"),
      ("nobody", "/nonexistent")]

/-- A `~` in front stands for the home folder, of the user that is named behind it if one is. -/
def homeward (s : State) (w : Word) : Word :=
  match Script.bareStart w with
  | ('~' :: more, behind) =>
    let user := String.ofList (more.takeWhile (· != '/'))
    let rest := more.dropWhile (· != '/')
    let home := if user.isEmpty then param? s "HOME" else homes.lookup user
    match home with
    | some folder =>
      if rest.isEmpty && !behind.isEmpty then w
      else .text folder.toList true :: .text rest false :: behind
    | none => w
  | _ => w

/-- The fields of a word. -/
def fieldsOf (run : Script → Sh Unit) (w : Word) : Sh (List (List Mark)) := do
  let f ← addParts run (partFuel w) (homeward (← get) w) .none
  return f.cut.complete

/-- A part that is not split. -/
def whole : Part → Part
  | .text cs _ => .text cs true
  | .param name _ => .param name true
  | .size name _ => .size name true
  | .fallback name sign colon word _ => .fallback name sign colon word true
  | .trimmed name atEnd longest pattern _ => .trimmed name atEnd longest pattern true
  | .output script _ => .output script true
  | .sum expression _ => .sum expression true
  | .unknown => .unknown

/-- The word as one text, neither split nor matched. -/
def textOf (run : Script → Sh Unit) (w : Word) : Sh String := do
  let parts := (homeward (← get) w).map whole
  return String.intercalate " " ((← fieldsOf run parts).map Pattern.text)

/-- The word as one pattern. -/
def patternOf (run : Script → Sh Unit) (w : Word) : Sh (List Mark) := do
  return (← fieldsOf run w).flatten

/-- **The texts that words stand for.** -/
def expandWords (run : Script → Sh Unit) : List Word → Sh (List String)
  | [] => return []
  | w :: rest => do
    let fields ← fieldsOf run w
    let s ← get
    let texts := if s.settings.unmatched then fields.map Pattern.text
      else fields.flatMap (Pattern.paths s.files s.cwd)
    return texts ++ (← expandWords run rest)

end Sh

end Arbor.Shell
