import Arbor.Shell.Process
import Arbor.Shell.Program.Condition
import Arbor.Shell.Program.Text

/-! # Commands of the shell itself

The commands that change the shell: its folder, variables, options, arguments and the way it goes
through its script. -/

namespace Arbor.Shell

namespace Sh

/-- Goes to a folder; `-` is the one before. -/
def cd : Program := fun args => do
  let s ← get
  let target := (args.filter fun a => !(["--", "-L", "-P"].contains a)).head?.getD
    ((param? s "HOME").getD "/")
  let before := (param? s "OLDPWD").getD s.cwd.text
  let p := (s.cwd.join ⟨if target = "-" then before else target⟩).normalize
  let p := if args.contains "-P" then ((s.files.canonical p).toOption).getD p else p
  if s.files.isFolder p then do
    modify fun s => { s with cwd := p }
    setVariable "OLDPWD" s.cwd.text
    setVariable "PWD" p.text
    if target = "-" then say (p.text ++ "\n")
    finish 0
  else do
    report ("cd: can't cd to " ++ target)
    finish 2

/-- The options and the words of a command of the shell that knows some letters. An unknown letter
is told, and nothing is returned. -/
def letters? (command known : String) (args : List String) :
    Sh (Option (List Char × List String)) := do
  let usage : Program.Usage :=
    { program := command, code := 2, letters := known, names := [], ordered := true }
  match usage.read args with
  | .ok a => return some (a.letters, a.words)
  | .error (.letter c) => do
    report (command ++ ": Illegal option -" ++ c.toString)
    finish 2
    return none
  | .error _ => do
    report (command ++ ": Illegal option --")
    finish 2
    return none

/-- The number that an argument is; any other text stops the shell. -/
def numberOf (command arg : String) : Sh Nat := do
  match Program.count? arg with
  | some n => return n
  | none => refuse (command ++ ": Illegal number: " ++ arg)

/-- The exit code that the arguments name, or the last one. -/
def exitCode (command : String) (args : List String) : Sh Nat := do
  match args with
  | [] => return (← get).status
  | arg :: _ => return (← numberOf command arg) % 256

/-- Leaves loops, or the rounds of loops. Outside of loops nothing is done. -/
def leave (command : String) (stop : Nat → Stop) : Program := fun args => do
  let n ← match args with
    | [] => pure 1
    | arg :: _ => numberOf command arg
  if n = 0 then refuse (command ++ ": Illegal number: " ++ args.headD "")
  finish 0
  let loops := (← get).loops
  if loops ≠ 0 then throw (stop (min n loops))

/-- The line at the front of the input: its characters, what is left, and whether it has an end. An
escape in front of a line end joins lines, in front of another character it goes away. -/
def logicalLine (raw : Bool) : List Char → List Char × List Char × Bool
  | [] => ([], [], false)
  | '\n' :: rest => ([], rest, true)
  | '\\' :: c :: rest =>
    let (line, rest, ended) := logicalLine raw rest
    if raw then ('\\' :: c :: line, rest, ended)
    else if c == '\n' then (line, rest, ended)
    else (c :: line, rest, ended)
  | c :: rest =>
    let (line, rest, ended) := logicalLine raw rest
    (c :: line, rest, ended)

/-- A separator that is a blank. -/
def blankSeparator (s : State) (c : Char) : Bool :=
  (separators s).contains c && (c == ' ' || c == '\t' || c == '\n')

/-- The values of so many variables in a line: fields, and for the last one what is left. -/
def lineValues (s : State) : Nat → List Char → List String
  | 0, _ => []
  | 1, cs =>
    let cs := cs.dropWhile (blankSeparator s)
    [String.ofList (cs.reverse.dropWhile (blankSeparator s)).reverse]
  | n + 1, cs =>
    let cs := cs.dropWhile (blankSeparator s)
    let field := cs.takeWhile fun c => !(separators s).contains c
    let behind := (cs.drop field.length).dropWhile (blankSeparator s)
    let behind := match behind with
      | c :: rest => if (separators s).contains c then rest else behind
      | [] => []
    String.ofList field :: lineValues s n behind

/-- The text can be the name of a variable. -/
def isName (s : String) : Bool :=
  (s.toList.head?.any Token.startsName) && s.toList.all Token.inName

/-- Reads a line of the standard input into variables. -/
def readLine : Program := fun args => do
  let usage : Program.Usage :=
    { program := "read", code := 2, letters := "p:r", names := [], ordered := true }
  let s ← get
  match usage.read args with
  | .error (.letterNeedsValue c) => do
    report ("read: No arg for -" ++ c.toString ++ " option")
    finish 2
  | .error (.letter c) => do
    report ("read: Illegal option -" ++ c.toString)
    finish 2
  | .error _ => do
    report "read: Illegal option --"
    finish 2
  | .ok a =>
    if a.words.isEmpty then do
      report "read: arg count"
      finish 2
    else do
      let bytes ← Program.whole (← input).rest
      let (line, rest, ended) := logicalLine (a.has 'r') (Text.decode bytes)
      leaveInput (.ofText (String.ofList rest))
      finish (if ended then 0 else 1)
      for (name, value) in a.words.zip (lineValues s a.words.length line) do
        if isName name then setVariable name value
        else do
          report ("read: " ++ name ++ ": bad variable name")
          finish 2

/-! ### Variables -/

/-- The name and, if there is one, the value of an argument of the form `name=value`. -/
def nameAndValue (command arg : String) : Sh (String × Option String) := do
  let name := String.ofList (arg.toList.takeWhile (· != '='))
  if !isName name then refuse (command ++ ": " ++ name ++ ": bad variable name")
  return (name, if name = arg then none
    else some (String.ofList (arg.toList.drop (name.length + 1))))

/-- Lets other programs see a variable. -/
def share (name : String) : Sh Unit := modify fun s => { s with exported := name :: s.exported }

/-- Writes variables so that a shell can read them back. -/
def listVariables (command : String) (names : List String) : Sh Unit := do
  let s ← get
  for name in (names.eraseDups).mergeSort fun a b => !decide (b < a) do
    match s.bindings.get? name with
    | some value => say (command ++ name ++ "=" ++ quoted value ++ "\n")
    | none => pure ()

/-- Marks variables, given by name or as `name=value`. -/
def markAll (command : String) (mark : String → Sh Unit) (marked : State → List String) : Program :=
  fun args => do
    finish 0
    let some (_, words) ← letters? command "p" args | throw (.exit 2)
    if words.isEmpty then listVariables (command ++ " ") (marked (← get))
    for arg in words do
      let (name, value) ← nameAndValue command arg
      match value with
      | some value => setBy (command ++ ": ") name value
      | none => pure ()
      mark name

/-- Lets other programs see variables. -/
def shareAll : Program := markAll "export" share State.exported

/-- Keeps the values of variables. -/
def freezeAll : Program :=
  markAll "readonly" (fun name => modify fun s =>
    { s with frozen := name :: s.frozen }) State.frozen

/-- Makes variables that end with the function. -/
def localAll : Program := fun args => do
  finish 0
  for arg in args do
    let s ← get
    match s.locals with
    | none => refuse "local: not in a function"
    | some outer => do
      let (name, value) ← nameAndValue "local" arg
      modify fun s => { s with locals := some ((name, s.bindings.get? name) :: outer) }
      match value with
      | some value => setVariable name value
      | none => pure ()

/-- Forgets variables, or functions. -/
def unsetAll : Program := fun args => do
  finish 0
  let some (letters, words) ← letters? "unset" "fv" args | throw (.exit 2)
  let functions := letters.contains 'f'
  for name in words do
    if functions then modify fun s =>
      { s with functions := s.functions.filter fun f => f.1 != name }
    else do
      if !isName name then refuse ("unset: " ++ name ++ ": bad variable name")
      if (← get).frozen.contains name then refuse ("unset: " ++ name ++ ": is read only")
      modify fun s => { s with bindings := s.bindings.drop name }

/-! ### Options and arguments -/

/-- The letters of the options with long names. -/
def longNames : List (String × Char) :=
  [("errexit", 'e'), ("noglob", 'f'), ("ignoreeof", 'I'), ("interactive", 'i'), ("monitor", 'm'),
    ("noexec", 'n'), ("stdin", 's'), ("xtrace", 'x'), ("verbose", 'v'), ("vi", 'V'), ("emacs", 'E'),
    ("noclobber", 'C'), ("allexport", 'a'), ("notify", 'b'), ("nounset", 'u'), ("privileged", 'p')]

/-- Letters of options that change nothing here. -/
def idleLetters : List Char := "aCbhmvIVEip".toList

/-- Options with long names only. -/
def longOnly : List String := ["nolog", "debug"]

/-- There is an option of the letter. -/
def knowsOption (c : Char) : Bool := ("efnux".toList ++ idleLetters).contains c

/-- Turns an option on or off. -/
def setOption (on : Bool) (c : Char) : Sh Unit := do
  let change := fun (f : Settings → Settings) =>
    (modify fun s => { s with settings := f s.settings } : Sh Unit)
  match c with
  | 'e' => change fun o => { o with strict := on }
  | 'u' => change fun o => { o with demanding := on }
  | 'f' => change fun o => { o with unmatched := on }
  | 'x' => change fun o => { o with traced := on }
  | 'n' => change fun o => { o with idle := on }
  | c => if !idleLetters.contains c then
      refuse ("set: Illegal option " ++ (if on then "-" else "+") ++ c.toString)

/-- The option of a letter is on. -/
def isOn (o : Settings) (c : Char) : Bool :=
  match c with
  | 'e' => o.strict
  | 'u' => o.demanding
  | 'f' => o.unmatched
  | 'x' => o.traced
  | 'n' => o.idle
  | _ => false

/-- Writes all options. -/
def listOptions : Sh Unit := do
  let o := (← get).settings
  let row := fun (name : String) (on : Bool) =>
    name ++ String.ofList (List.replicate (16 - name.length) ' ') ++
      (if on then "on" else "off") ++ "\n"
  say ("Current option settings\n" ++ String.join (longNames.map fun n => row n.1 (isOn o n.2)) ++
    String.join (longOnly.map fun n => row n false))
  finish 0

/-- Writes all variables, in the order of their names. -/
def listBindings : Sh Unit := do
  for (name, value) in (← get).bindings.mergeSort fun a b => a.1 ≤ b.1 do
    say (name ++ "=" ++ quoted value ++ "\n")
  finish 0

/-- Turns an option with a long name on or off. -/
def setLongOption (on : Bool) (name : String) : Sh Unit := do
  match longNames.lookup name with
  | some c => setOption on c
  | none =>
    if !longOnly.contains name then
      refuse ("set: Illegal option " ++ (if on then "-o " else "+o ") ++ name)

/-- Sets options, and the positional parameters to the first word that is none and all behind it. -/
def setArguments : Program
  | [] => finish 0
  | "--" :: rest => modify fun s => { s with arguments := rest, status := 0 }
  | "-" :: rest => setArguments rest
  | [arg] =>
    match arg.toList with
    | sign :: letters =>
      if sign == '-' || sign == '+' then do
        let on := sign == '-'
        for c in letters do
          if c == 'o' then listOptions else setOption on c
        finish 0
      else modify fun s => { s with arguments := [arg], status := 0 }
    | [] => modify fun s => { s with arguments := [arg], status := 0 }
  | arg :: name :: rest =>
    match arg.toList with
    | sign :: letters =>
      if sign == '-' || sign == '+' then do
        let on := sign == '-'
        for c in letters do
          if c == 'o' then setLongOption on name else setOption on c
        if letters.contains 'o' then setArguments rest else setArguments (name :: rest)
      else modify fun s => { s with arguments := arg :: name :: rest, status := 0 }
    | [] => modify fun s => { s with arguments := arg :: name :: rest, status := 0 }

/-- Sets options and positional parameters, or writes all variables. -/
def setOptions : Program := fun args =>
  if args.isEmpty then listBindings else setArguments args

/-- Drops the first arguments. -/
def shift : Program := fun args => do
  let n ← match args with
    | [] => pure 1
    | arg :: _ => numberOf "shift" arg
  if (← get).arguments.length < n then refuse "shift: can't shift that many"
  modify fun s => { s with arguments := s.arguments.drop n }
  finish 0

/-- Writes the folder of the shell, if asked without the links that lead to it. -/
def pwd : Program := fun args => do
  let some (letters, _) ← letters? "pwd" "LP" args | return ()
  let s ← get
  let p := if letters.getLast? = some 'P' then ((s.files.canonical s.cwd).toOption).getD s.cwd
    else s.cwd
  say (p.text ++ "\n")
  finish 0

/-! ### Short names, rights and jobs -/

/-- Gives short names to commands, or writes them. -/
def aliasAll : Program := fun args => do
  finish 0
  if args.isEmpty then
    for (name, value) in (← get).aliases do
      say (name ++ "=" ++ quoted value ++ "\n")
  for arg in args do
    let name := String.ofList (arg.toList.takeWhile (· != '='))
    if name.length < arg.length && !name.isEmpty then
      let value := String.ofList (arg.toList.drop (name.length + 1))
      modify fun s => { s with aliases := s.aliases.put name value }
    else
      match (← get).aliases.get? arg with
      | some value => say (arg ++ "=" ++ quoted value ++ "\n")
      | none => Program.fail 1 ("alias: " ++ arg ++ " not found")

/-- Forgets short names. -/
def unaliasAll : Program := fun args => do
  finish 0
  if args.contains "-a" then modify fun s => { s with aliases := [] }
  for name in args.filter (· != "-a") do
    if ((← get).aliases.get? name).isSome then
      modify fun s => { s with aliases := s.aliases.drop name }
    else Program.fail 1 ("unalias: " ++ name ++ " not found")

/-- The rights of one kind of users by letters. -/
def rightLetters (n : Nat) : String :=
  String.join [if n / 4 % 2 = 1 then "r" else "", if n / 2 % 2 = 1 then "w" else "",
    if n % 2 = 1 then "x" else ""]

/-- Sets the rights that new files do not get, or writes them. -/
def umask : Program := fun args => do
  finish 0
  let mask := (← get).mask
  let digits := fun (n : Nat) => String.ofList (Nat.toDigits 8 n)
  match args with
  | [] => say ("0" ++ digits (mask / 64 % 8) ++ digits (mask / 8 % 8) ++ digits (mask % 8) ++ "\n")
  | "-S" :: _ =>
    let given := 0o777 - mask
    say ("u=" ++ rightLetters (given / 64) ++ ",g=" ++ rightLetters (given / 8) ++ ",o=" ++
      rightLetters given ++ "\n")
  | arg :: _ =>
    let (n, read) := Format.readDigits 8 arg.toList
    if !arg.isEmpty && read.length = arg.length then modify fun s => { s with mask := n % 0o1000 }
    else if arg.toList.head?.any Char.isDigit then do
      report ("umask: Illegal number: " ++ arg)
      finish 2
    else do
      report ("umask: Illegal mode: " ++ arg)
      finish 2

/-- Goes on with a job, of which there is none that waits. -/
def resumeJob (command : String) : Program := fun args => do
  report (command ++ ": " ++ match args with
    | [] => "No current job"
    | job :: _ => "No such job: " ++ job)
  finish 2

/-- Looks for programs. -/
def hash (known : String → Bool) : Program := fun args => do
  finish 0
  for name in args.filter (· != "-r") do
    if !known name then
      report ("hash: " ++ name ++ ": not found")
      finish 1

/-! ### Options of scripts -/

/-- The next option of arguments, from the word with a number and a character of it on: the letter,
its argument if it takes one, and where the next one is looked for. -/
inductive NextOption where
  | none (word : Nat)
  | letter (c : Char) (argument : Option String) (word char : Nat)
  | unknown (c : Char) (word char : Nat)
  | lacking (c : Char) (word : Nat)

/-- Finds the next option. -/
def nextOption (known : List Char) (args : List String) (word char : Nat) : NextOption :=
  let cs := ((args[word - 1]?).getD "").toList
  if char = 0 && (cs.head? != some '-' || cs.length < 2) then .none word
  else if char = 0 && cs = ['-', '-'] then .none (word + 1)
  else
    let place := max char 1
    let c := (cs[place]?).getD '-'
    let (nextWord, nextChar) := if place + 1 < cs.length then (word, place + 1) else (word + 1, 0)
    match (known.dropWhile (· != c)) with
    | found :: ':' :: _ =>
      if nextChar ≠ 0 then .letter found (some (String.ofList (cs.drop nextChar))) (word + 1) 0
      else
        match args[nextWord - 1]? with
        | some arg => .letter found (some arg) (nextWord + 1) 0
        | Option.none => .lacking found nextWord
    | found :: _ => if found == ':' then .unknown c nextWord nextChar
        else .letter found Option.none nextWord nextChar
    | [] => .unknown c nextWord nextChar

/-- Reads the next option of a script into a variable. -/
def getopts : Program := fun args => do
  match args with
  | known :: name :: words => do
    let s ← get
    let args := if words.isEmpty then s.arguments else words
    let quiet := known.toList.head? = some ':'
    let letters := if quiet then known.toList.drop 1 else known.toList
    let word := ((param? s "OPTIND").bind Program.count?).getD 1
    let char := if (param? s "OPTIND") = s.optionWord then s.optionChar else 0
    let goOn := fun (word char : Nat) => (do
      setVariable "OPTIND" (Nat.repr word)
      modify fun s => { s with optionWord := some (Nat.repr word), optionChar := char } : Sh Unit)
    finish 0
    match nextOption letters args (max word 1) char with
    | .none word => do
      goOn word 0
      setVariable name "?"
      finish 1
    | .letter c argument word char => do
      goOn word char
      setVariable name c.toString
      match argument with
      | some value => setVariable "OPTARG" value
      | Option.none => modify fun s => { s with bindings := s.bindings.drop "OPTARG" }
    | .unknown c word char => do
      goOn word char
      setVariable name "?"
      if quiet then setVariable "OPTARG" c.toString
      else do
        complain ("Illegal option -" ++ c.toString)
        modify fun s => { s with bindings := s.bindings.drop "OPTARG" }
    | .lacking c word => do
      goOn word 0
      setVariable name (if quiet then ":" else "?")
      if quiet then setVariable "OPTARG" c.toString
      else do
        complain ("No arg for -" ++ c.toString ++ " option")
        modify fun s => { s with bindings := s.bindings.drop "OPTARG" }
  | _ => do
    report "getopts: Usage: getopts optstring var [arg...]"
    finish 2

/-- The commands of the shell that run no other. -/
def builtins (run : Script → Sh Unit) : List (String × Program) :=
  [(":", fun _ => finish 0), ("true", fun _ => finish 0), ("false", fun _ => finish 1),
    ("echo", Program.echo), ("printf", Program.printf), ("test", Program.test),
    ("[", Program.bracket), ("cd", cd), ("pwd", pwd),
    ("exit", fun args => do throw (.exit (← exitCode "exit" args))),
    ("return", fun args => do throw (.returned (← exitCode "return" args))),
    ("kill", kill run), ("wait", wait), ("read", readLine), ("export", shareAll),
    ("readonly", freezeAll), ("local", localAll), ("set", setOptions), ("trap", trap),
    ("umask", umask), ("alias", aliasAll), ("unalias", unaliasAll), ("bg", resumeJob "bg"),
    ("fg", resumeJob "fg"), ("getopts", getopts),
      ("ulimit", fun _ => do say "unlimited\n"; finish 0),
    ("times", fun _ => do say "0m0.000000s 0m0.000000s\n0m0.000000s 0m0.000000s\n"; finish 0),
    ("unset", unsetAll), ("shift", shift),
    ("break", leave "break" .leaveLoop), ("continue", leave "continue" .nextRound),
    ("jobs", fun _ => finish 0)]

/-- The commands whose failure ends the shell, and whose settings stay. -/
def specialNames : List String :=
  [":", ".", "break", "continue", "eval", "exec", "exit", "export", "readonly", "return", "set",
    "shift", "times", "trap", "unset"]

end Sh

end Arbor.Shell
