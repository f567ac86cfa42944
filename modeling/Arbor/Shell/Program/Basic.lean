import Arbor.Shell.Program.Names
import Arbor.Shell.State

/-! # What programs share

A program is a part of a shell's run that takes arguments. It reads files or the standard input,
writes to the standard output, and says what it could not do on the standard error. -/

namespace Arbor.Shell

/-- A program. -/
abbrev Program := List String → Sh Unit

namespace Program

/-- Why something cannot be run. -/
inductive Refusal where
  | absent
  | forbidden
  deriving DecidableEq, Repr

/-- A refusal in words. -/
def Refusal.reason : Refusal → String
  | absent => "No such file or directory"
  | forbidden => "Permission denied"

/-- The exit code of a program that was refused. -/
def Refusal.code : Refusal → Nat
  | absent => 127
  | forbidden => 126

/-- How to run the program of some words: it runs as a process of its own, or it is refused. -/
abbrev Launcher := List String → Sh (Option Refusal)

/-- The arguments of a program, sorted. -/
structure Arguments where
  /-- Options without a value. -/
  letters : List Char
  /-- Options with their values. -/
  values : List (Char × String)
  words : List String

namespace Arguments

/-- The option was given. -/
def has (a : Arguments) (c : Char) : Bool := a.letters.contains c

/-- The value of an option, the last one if it was given more than once. -/
def value? (a : Arguments) (c : Char) : Option String := a.values.reverse.lookup c

/-- The last option among some letters that have values. -/
def lastOf (a : Arguments) (among : String) : Option (Char × String) :=
  (a.values.filter fun v => among.toList.contains v.1).getLast?

/-- The values of an option, in their order. -/
def allOf (a : Arguments) (c : Char) : List String :=
  (a.values.filter fun v => v.1 == c).map Prod.snd

/-- One more option without a value. -/
def withLetter (a : Arguments) (c : Char) : Arguments := { a with letters := a.letters ++ [c] }

/-- One more option with a value. -/
def withValue (a : Arguments) (c : Char) (v : String) : Arguments :=
  { a with values := a.values ++ [(c, v)] }

end Arguments

/-- Says why something failed, and fails. -/
def fail (code : Nat) (text : String) : Sh Unit := do
  Sh.complain text
  Sh.finish code

/-- Says that an argument is missing, and fails. -/
def lacking (program what : String) : Sh Unit :=
  fail 1 (program ++ ": missing " ++ what ++ "\nTry '" ++ program ++
    " --help' for more information.")

/-- The named file or, for `-`, the standard input. -/
def source (name : String) : Sh (Except OsError Stream) := do
  if name = "-" then
    if (← Sh.input).isFolder then return .error .isFolder else return .ok (← Sh.takeInput)
  else Sh.readFile name

/-- The bytes of a stream, which has to end. -/
def whole (s : Stream) : Sh (List UInt8) := do
  if s.isEndless then throw .overrun else return s.start

/-- The bytes of all named files, or of the standard input if none is named. Files that cannot be
read are told of by `refuse`. -/
def gather (refuse : String → OsError → Sh Unit) : List String → Sh (List UInt8)
  | [] => return []
  | name :: rest => do
    let here ← match ← source name with
      | .ok s => whole s
      | .error e => do
        refuse name e
        pure []
    return here ++ (← gather refuse rest)

/-- The names of the files, or the standard input if there are none. -/
def sources (names : List String) : List String := if names.isEmpty then ["-"] else names

/-- The bytes of a program's input, with the usual wording for files that cannot be read. -/
def inputOf (program : String) (code : Nat) (names : List String) : Sh (List UInt8) :=
  gather (fun name e =>
    fail code (program ++ ": " ++ Names.shown name ++ ": " ++ e.reason)) (sources names)

/-- The natural number of a text. -/
def count? (s : String) : Option Nat :=
  if s.isEmpty || !s.toList.all Char.isDigit then none else s.toNat?

/-- The whole number of a text, with or without a sign. -/
def int? (s : String) : Option Int :=
  match s.toList with
  | '-' :: digits => (count? (String.ofList digits)).map fun n => -(n : Int)
  | '+' :: digits => (count? (String.ofList digits)).map fun n => (n : Int)
  | _ => (count? s).map fun n => (n : Int)

/-- The span of a text in microseconds: a number of seconds, or of the unit behind it. -/
def span? (s : String) : Option Nat :=
  let (factor, cs) := match s.toList.getLast? with
    | some 's' => (1000000, s.toList.dropLast)
    | some 'm' => (60000000, s.toList.dropLast)
    | some 'h' => (3600000000, s.toList.dropLast)
    | some 'd' => (86400000000, s.toList.dropLast)
    | _ => (1000000, s.toList)
  let front := cs.takeWhile (· != '.')
  let back := (cs.dropWhile (· != '.')).drop 1
  let digits := front ++ back
  if digits.isEmpty || !digits.all Char.isDigit then none
  else some (((String.ofList digits).toNat?.getD 0) * factor / Nat.pow 10 back.length)

end Program

end Arbor.Shell
