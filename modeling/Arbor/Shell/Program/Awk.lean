import Arbor.Shell.Program.Awk.Run

/-! # A program that goes through records

`awk` takes a program text from its arguments or from files, sets variables, and runs the program
over the files behind it. -/

namespace Arbor.Shell.Program

namespace Awk

/-- What arguments ask for. -/
structure Order where
  separator : Option (List Char)
  /-- The variables that are set, with their values. -/
  settings : List (String × List Char)
  /-- The files that hold the program. -/
  files : List String
  words : List String

/-- The order of arguments, or what is wrong with them. -/
def readOrder (o : Order) : List String → Except String Order
  | [] => .ok o
  | ["-F"] => .error "option -F lacks argument"
  | ["-v"] => .error "option -v lacks argument"
  | ["-f"] => .error "option -f lacks argument"
  | "-F" :: s :: rest => readOrder { o with separator := some (octetsOf s) } rest
  | "-v" :: s :: rest =>
    match Act.assignment? (octetsOf s) with
    | some setting => readOrder { o with settings := o.settings ++ [setting] } rest
    | none => .error ("improper assignment: -v " ++ s)
  | "-f" :: file :: rest => readOrder { o with files := o.files ++ [file] } rest
  | "--" :: rest => .ok { o with words := rest }
  | "-" :: rest => .ok { o with words := "-" :: rest }
  | arg :: rest =>
    match arg.toList with
    | '-' :: 'F' :: s => readOrder { o with separator := some (octetsOf (String.ofList s)) } rest
    | '-' :: 'v' :: s =>
      match Act.assignment? (octetsOf (String.ofList s)) with
      | some setting => readOrder { o with settings := o.settings ++ [setting] } rest
      | none => .error ("improper assignment: -v " ++ String.ofList s)
    | '-' :: 'f' :: s => readOrder { o with files := o.files ++ [String.ofList s] } rest
    | '-' :: _ => .error ("not an option: " ++ arg)
    | _ => .ok { o with words := arg :: rest }

/-- The text of a program, the name of its file if it has one, and the words behind it. -/
def programText (o : Order) : Sh (Except String (List Char × Option String × List String)) := do
  match o.files, o.words with
  | [], [] => return .error ""
  | [], program :: rest => return .ok (octetsOf program, none, rest)
  | files, words => do
    let mut cs : List Char := []
    for file in files do
      match ← source file with
      | .ok s => cs := cs ++ octets (← whole s) ++ ['\n']
      | .error e => return .error ("cannot open \"" ++ file ++ "\" (" ++ e.reason ++ ")")
    return .ok (cs, files.getLast?, words)

/-- A machine at the start of a program. -/
def Machine.start (globals : List (String × Cell)) : Machine where
  globals := globals
  stack := #[]
  locals := []
  record := []
  fields := []
  left := none
  argument := 1
  started := false
  readers := []
  writers := []
  waiting := []
  spans := []
  exitCode := 0
  seed := 1

/-- The elements of an array of words, from zero on. -/
def numbered (words : List String) : Elements :=
  (words.zipIdx.map fun w => ((Nat.repr w.2).toList, Value.input (octetsOf w.1))).reverse

/-- The variables at the start of a program. -/
def startVariables (self : String) (o : Order) (words : List String) (shared : Table String) :
    List (String × Cell) :=
  let text := fun (s : String) => Cell.value (.text s.toList)
  let count := fun (n : Nat) => Cell.value (.ofNat n)
  let separator := match o.separator with
    | some cs => Cell.value (.text (unescaped (cs.length + 1) cs))
    | none => text " "
  let fixed := [("FS", separator), ("OFS", text " "), ("ORS", text "\n"), ("RS", text "\n"),
    ("SUBSEP", text "\x1c"), ("CONVFMT", text "%.6g"), ("OFMT", text "%.6g"), ("NR", count 0),
    ("FNR", count 0), ("RSTART", count 0), ("RLENGTH", Cell.value (.number (-1))),
    ("FILENAME", text ""), ("ARGC", count (words.length + 1)),
    ("ARGV", .array (numbered (self :: words))),
    ("ENVIRON", .array (shared.map fun v => (octetsOf v.1, Value.input (octetsOf v.2))))]
  let given := o.settings.reverse.map fun s =>
    (s.1, Cell.value (.input (unescaped (s.2.length + 1) s.2)))
  given ++ fixed

/-- What is said of a fault in a program. -/
def faultText (file : Option String) (f : Fault) : String :=
  ((file.map (· ++ ": ")).getD "") ++ (if f.short then "" else "line ") ++ Nat.repr f.line ++
    ": " ++ f.text

/-- Runs a program to its end, and returns the exit code. -/
def perform (self : String) (launcher : Launcher) (script : Script) : StateT Machine Sh Nat := do
  match ← ExceptT.run (runScript launcher script) with
  | .error (.fault text) => do
    let _ ← ExceptT.run (Act.closeAll launcher)
    StateT.lift (Sh.complain (self ++ ": " ++ text))
    return 2
  | _ => do
    let _ ← ExceptT.run (Act.closeAll launcher)
    return (← get).exitCode

end Awk

/-- Goes through records as a program text says. -/
def awk (self : String) (launcher : Launcher) : Program := fun args => do
  let plain : Awk.Order := { separator := none, settings := [], files := [], words := [] }
  match Awk.readOrder plain args with
  | .error text => fail 2 (self ++ ": " ++ text)
  | .ok o =>
    match ← Awk.programText o with
    | .error "" => fail 2 "Usage: mawk [Options] [Program] [file ...]"
    | .error text => fail 2 (self ++ ": " ++ text)
    | .ok (cs, file, words) =>
      match Awk.Script.read cs with
      | .error fault => fail 2 (self ++ ": " ++ Awk.faultText file fault)
      | .ok script => do
        let s ← get
        let shared := s.bindings.filter fun v => s.exported.contains v.1
        let machine := Awk.Machine.start (Awk.startVariables self o words shared)
        let (code, _) ← (Awk.perform self launcher script).run machine
        Sh.finish code

end Arbor.Shell.Program
