import Arbor.Shell.Program.Basic

/-! # Options of programs

A program says which options it knows, and its arguments are sorted by that: options by letter or by
name, with or without values, and words. A name may be cut short as long as it is clear which one is
meant. Options and words may be mixed up to a double dash, except for programs that run others. -/

namespace Arbor.Shell.Program

/-- Whether an option has a value. -/
inductive Demand where
  | none
  /-- The rest of the argument or, if nothing is left, the next argument. -/
  | value
  /-- The rest of the argument, if there is one. -/
  | optional
  deriving DecidableEq, Repr

/-- The options that a program knows. -/
structure Usage where
  program : String
  /-- The exit code for arguments that cannot be sorted. -/
  code : Nat
  /-- The letters; one that has a value stands before a colon, one that may have one before two. -/
  letters : String
  /-- The names with the letters that they stand for. A name that has a value ends in `=`, one that
  may have one in `=?`. -/
  names : List (String × Char)
  /-- Options end at the first word. -/
  ordered : Bool := false
  /-- What is said behind the fault. -/
  advice : String := "Try '" ++ program ++ " --help' for more information."

/-- Why arguments cannot be sorted. -/
inductive Usage.Fault where
  | letter (c : Char)
  | name (name : String)
  | ambiguous (name : String) (names : List String)
  | letterNeedsValue (c : Char)
  | nameNeedsValue (name : String)
  | nameHasNoValue (name : String)
  deriving DecidableEq, Repr

/-- A fault in words. -/
def Usage.Fault.message : Usage.Fault → String
  | letter c => "invalid option -- '" ++ c.toString ++ "'"
  | name n => "unrecognized option '--" ++ n ++ "'"
  | ambiguous n names => "option '--" ++ n ++ "' is ambiguous; possibilities:" ++
      String.join (names.map fun n => " '--" ++ n ++ "'")
  | letterNeedsValue c => "option requires an argument -- '" ++ c.toString ++ "'"
  | nameNeedsValue n => "option '--" ++ n ++ "' requires an argument"
  | nameHasNoValue n => "option '--" ++ n ++ "' doesn't allow an argument"

namespace Usage

/-- What a letter demands, if it is one of the letters that are listed. -/
def demandIn (c : Char) : List Char → Option Demand
  | [] => none
  | d :: ':' :: ':' :: rest => if c == d then some .optional else demandIn c rest
  | d :: ':' :: rest => if c == d then some .value else demandIn c rest
  | d :: rest => if c == d then some .none else demandIn c rest

/-- A name without the sign of what it demands, with its letter. -/
def nameOf (n : String × Char) : String × Demand × Char :=
  if n.1.endsWith "=?" then (String.ofList (n.1.toList.take (n.1.length - 2)), .optional, n.2)
  else if n.1.endsWith "=" then (String.ofList n.1.toList.dropLast, .value, n.2)
  else (n.1, .none, n.2)

/-- The option of a name, which may be cut short. -/
def findName (u : Usage) (name : String) : Except Fault (String × Demand × Char) :=
  let all := u.names.map nameOf
  match all.find? fun n => n.1 = name with
  | some n => .ok n
  | none =>
    match all.filter fun n => n.1.startsWith name with
    | [] => .error (.name name)
    | n :: more =>
      if more.all fun m => m.2 = n.2 then .ok n
      else .error (.ambiguous name ((n :: more).map Prod.fst))

/-- Adds the option of a name to arguments; the arguments behind are returned. -/
def addName (u : Usage) (text : List Char) (rest : List String) (a : Arguments) :
    Except Fault (Arguments × List String) := do
  let written := text.takeWhile (· != '=')
  let (name, demand, c) ← u.findName (String.ofList written)
  let given := if written.length < text.length
    then some (String.ofList (text.drop (written.length + 1))) else none
  match demand, given, rest with
  | .none, some _, _ => .error (.nameHasNoValue name)
  | .value, none, [] => .error (.nameNeedsValue name)
  | .value, none, v :: rest => .ok (a.withValue c v, rest)
  | _, some v, rest => .ok (a.withValue c v, rest)
  | _, none, rest => .ok (a.withLetter c, rest)

/-- Adds the letters of one argument; the arguments behind are returned. -/
def addLetters (u : Usage) : List Char → List String → Arguments →
    Except Fault (Arguments × List String)
  | [], rest, a => .ok (a, rest)
  | c :: cs, rest, a =>
    match if c == ':' then none else demandIn c u.letters.toList with
    | none => .error (.letter c)
    | some .none => u.addLetters cs rest (a.withLetter c)
    | some demand =>
      match demand, cs, rest with
      | _, _ :: _, rest => .ok (a.withValue c (String.ofList cs), rest)
      | .value, [], v :: rest => .ok (a.withValue c v, rest)
      | .value, [], [] => .error (.letterNeedsValue c)
      | _, [], rest => .ok (a.withLetter c, rest)

/-- Sorts at most `limit` arguments. -/
def readWithin (u : Usage) : Nat → List String → Arguments → Except Fault Arguments
  | 0, _, a => .ok a
  | _, [], a => .ok a
  | _ + 1, "--" :: rest, a => .ok { a with words := a.words ++ rest }
  | limit + 1, arg :: rest, a =>
    match arg.toList with
    | '-' :: '-' :: text => do
      let (a, rest) ← u.addName text rest a
      u.readWithin limit rest a
    | '-' :: c :: cs => do
      let (a, rest) ← u.addLetters (c :: cs) rest a
      u.readWithin limit rest a
    | _ =>
      if u.ordered then .ok { a with words := a.words ++ arg :: rest }
      else u.readWithin limit rest { a with words := a.words ++ [arg] }

/-- **Sorts arguments** by what a program knows. -/
def read (u : Usage) (args : List String) : Except Fault Arguments :=
  u.readWithin args.length args { letters := [], values := [], words := [] }

/-- A program that begins by sorting its arguments. -/
def checked (u : Usage) (body : Arguments → Sh Unit) : Program := fun args => do
  match u.read args with
  | .ok a => do
    Sh.finish 0
    body a
  | .error fault => fail u.code (u.program ++ ": " ++ fault.message ++ "\n" ++ u.advice)

/-- Says what is wrong with the arguments, with the usual advice, and fails. -/
def refuse (u : Usage) (text : String) : Sh Unit :=
  fail u.code (u.program ++ ": " ++ text ++ "\n" ++ u.advice)

end Usage

/-- A program without options. -/
def optionless (program : String) : Usage where
  program := program
  code := 1
  letters := ""
  names := []

end Arbor.Shell.Program
