import Arbor.Shell.Builtin
import Arbor.Shell.Program.Awk
import Arbor.Shell.Program.Bytes
import Arbor.Shell.Program.Columns
import Arbor.Shell.Program.Difference
import Arbor.Shell.Program.Digest
import Arbor.Shell.Program.Edit
import Arbor.Shell.Program.Facts
import Arbor.Shell.Program.Find
import Arbor.Shell.Program.Runners
import Arbor.Shell.Program.Translate

/-! # Programs that are not part of the shell

The programs by name, shells inside of shells, and scripts. `lookUp` finds what a name stands for,
and `launch` runs it as a process of its own. -/

namespace Arbor.Shell

namespace Sh

/-- The programs that run no others. -/
def programs : List (String × Program) :=
  [("[", Program.bracket), ("arch", Program.teller "arch" "x86_64"), ("base32", Program.base32),
    ("base64", Program.base64), ("basename", Program.basename), ("cat", Program.cat),
    ("chmod", Program.chmod), ("cksum", Program.cksum), ("cmp", Program.cmp),
    ("comm", Program.comm), ("cp", Program.cp), ("cut", Program.cut), ("diff", Program.diff),
    ("dirname", Program.dirname), ("du", Program.du), ("echo", Program.plainEcho),
    ("egrep", Program.egrep), ("expand", Program.expand), ("expr", Program.expr),
    ("factor", Program.factor), ("false", fun _ => finish 1), ("fgrep", Program.fgrep),
    ("fold", Program.fold), ("grep", Program.grep), ("groups", Program.teller "groups" "root"),
    ("head", Program.head), ("id", Program.userId), ("join", Program.join), ("ln", Program.ln),
    ("ls", Program.ls), ("md5sum", Program.digestProgram "md5sum" "MD5" Program.Digest.md5),
    ("mkdir", Program.mkdir), ("mktemp", Program.mktemp), ("mv", Program.mv), ("nl", Program.nl),
    ("nproc", Program.teller "nproc" "4"), ("od", Program.od), ("paste", Program.paste),
    ("printf", Program.plainPrintf), ("pwd", pwd), ("readlink", Program.readlink),
    ("realpath", Program.realpath), ("rev", Program.rev), ("rm", Program.rm),
    ("rmdir", Program.rmdir), ("sed", Program.sed), ("seq", Program.seq),
    ("sha1sum", Program.digestProgram "sha1sum" "SHA1" Program.Digest.sha1),
    ("sha256sum", Program.digestProgram "sha256sum" "SHA256" Program.Digest.sha256),
    ("sleep", Program.sleep), ("sort", Program.sort), ("stat", Program.stat), ("sum", Program.sum),
    ("sync", fun _ => finish 0), ("tac", Program.tac), ("tail", Program.tail), ("tee", Program.tee),
    ("test", Program.test), ("touch", Program.touch), ("tr", Program.tr),
    ("true", fun _ => finish 0), ("truncate", Program.truncate), ("tty", Program.tty),
    ("uname", Program.uname), ("unexpand", Program.unexpand), ("uniq", Program.uniq),
    ("unlink", Program.unlink), ("wc", Program.wc), ("whoami", Program.teller "whoami" "root"),
    ("yes", Program.yes)]

/-- The programs that run others. -/
def runners : List String :=
  ["awk", "bash", "dash", "env", "find", "mawk", "nice", "nohup", "printenv", "sh",
    "timeout", "which", "xargs"]

/-- The folder in which programs are found. -/
def programFolder : String := "/usr/bin/"

/-- The name of a program without the folder that is given with it. -/
def bareName (name : String) : String :=
  match ["/bin/", programFolder].find? fun dir => name.startsWith dir with
  | some dir => String.ofList (name.toList.drop dir.length)
  | none => name

/-- Where a program is found. -/
def which? (name : String) : Option String :=
  if (programs.map Prod.fst ++ runners).contains (bareName name) then
    some (if name.toList.contains '/' then name else programFolder ++ name)
  else none

/-! ### A shell inside -/

/-- The start of a shell inside another, which is called by a name. -/
def beginShell (name : String) : Sh Unit :=
  modify fun s => { s with
    name := name
    context := ""
    shell := s.process
    settings := .plain
    tested := false
    traps := s.traps.filter fun t => t.2.isEmpty
    functions := []
    locals := none
    frozen := []
    arguments := []
    lastJob := none
    loops := 0
    status := 0
    line := 1
    bindings := ((("PATH", State.programFolders) :: State.ownBindings).filter
        fun v => !s.exported.contains v.1)
      ++ s.bindings.filter fun v => s.exported.contains v.1 }

/-- Stops a shell that cannot start. -/
def unstarted (text : String) : Sh Unit := do
  modify fun s => { s with line := 0 }
  refuse text

/-- Sets the options of one argument of a shell that starts; `name` is the next argument, which an
`o` takes for a long name. -/
def startOptions (on : Bool) (name : Option String) : List Char → Sh Unit
  | [] => return ()
  | c :: rest => do
    let sign := if on then "-" else "+"
    if c == 'o' then
      match name.map fun n => (n, longNames.lookup n) with
      | none => listOptions
      | some (_, some c) => setOption on c
      | some (n, none) => unstarted ("Illegal option " ++ sign ++ "o " ++ n)
    else if knowsOption c then setOption on c
    else if !"csl".toList.contains c then unstarted ("Illegal option " ++ sign ++ c.toString)
    startOptions on name rest

/-- Sets the options of a shell that starts; returns their letters and the arguments behind them. -/
def shellOptions : List String → Sh (List Char × List String)
  | [] => return ([], [])
  | arg :: rest => do
    if arg = "-" || arg = "--" then return ([], rest)
    match arg.toList with
    | sign :: letters =>
      if sign == '-' || sign == '+' then do
        startOptions (sign == '-') rest.head? letters
        let (more, words) ← match rest with
          | name :: behind =>
            if letters.contains 'o' then shellOptions behind else shellOptions (name :: behind)
          | [] => pure ([], [])
        return (letters ++ more, words)
      else return ([], arg :: rest)
    | [] => return ([], arg :: rest)

/-- What a shell inside another does with its arguments: it takes its script from one of them, from
a file or from the input. -/
def shellArguments (run : Script → Sh Unit) : Program := fun args => do
  let (letters, words) ← shellOptions args
  if letters.contains 's' then modify fun s => { s with arguments := words }
  match letters.contains 'c', if letters.contains 's' then [] else words with
  | true, [] => unstarted "-c requires an argument"
  | true, script :: rest => do
    modify fun s => { s with name := rest.headD s.name, arguments := rest.drop 1 }
    runText run script.toList
  | false, [] => do runText run (Text.decode (← Program.whole (← takeInput)))
  | false, file :: rest => do
    match ← readFile file with
    | .ok script => do
      modify fun s => { s with name := file, arguments := rest }
      runText run (Text.decode script.start)
    | .error _ => unstarted ("cannot open " ++ file ++ ": No such file")

/-- Runs a shell of its own. -/
def innerShell (run : Script → Sh Unit) (name : String) : Program := fun args => do
  beginShell name
  session run (shellArguments run args)

/-! ### Names of programs and scripts -/

/-- What a name stands for among programs and files. -/
inductive Runnable where
  /-- One of the programs, by the path under which it is found. -/
  | program (path : String)
  /-- A file with a script. -/
  | script (path : String) (bytes : List UInt8)

/-- The file at a path as a script. -/
def scriptAt (path : String) : Sh (Except Program.Refusal Runnable) := do
  let s ← get
  match s.files.status true (← locate path) with
  | .ok (loc, .file content) =>
    return if s.isRunnable loc then .ok (.script path content.toList) else .error .forbidden
  | .ok _ => return .error .forbidden
  | .error _ => return .error .absent

/-- Looks for a name in folders, one behind the other. Something that may not be run is passed
over. -/
def searchIn (name : String) (found : Program.Refusal) : List String →
    Sh (Except Program.Refusal Runnable)
  | [] => return .error found
  | folder :: rest => do
    let path := (if folder.isEmpty then "." else folder) ++ "/" ++ name
    if (which? path).isSome then return .ok (.program path)
    match ← scriptAt path with
    | .ok script => return .ok script
    | .error .forbidden => searchIn name .forbidden rest
    | .error .absent => searchIn name found rest

/-- **What a name stands for:** a name with a slash is a path, any other is searched. -/
def lookUp (name : String) : Sh (Except Program.Refusal Runnable) := do
  if name.isEmpty then return .error .forbidden
  else if name.toList.contains '/' then
    if (which? name).isSome then return .ok (.program name) else scriptAt name
  else
    match param? (← get) "PATH" with
    | none => return .error .absent
    | some folders => searchIn name .absent (folders.splitOn ":")

/-- Tells where programs are found. -/
def which : Program := fun args => do
  let usage : Program.Usage :=
    { program := "which", code := 2, letters := "as", names := [], ordered := true }
  match usage.read args with
  | .error (.letter c) => do
    complain ("Illegal option -" ++ c.toString ++ "\nUsage: /usr/bin/which [-as] args")
    finish 2
  | .error _ => do
    complain "Illegal option --\nUsage: /usr/bin/which [-as] args"
    finish 2
  | .ok a => do
    finish (if a.words.isEmpty then 1 else 0)
    for name in a.words do
      match ← lookUp name with
      | .ok (.program path) =>
        if !a.has 's' then
          say (path ++ "\n")
          if a.has 'a' && !name.toList.contains '/' then say ("/bin/" ++ name ++ "\n")
      | .ok (.script path _) => if !a.has 's' then say (path ++ "\n")
      | .error _ => finish 1

/-- How long a program takes to run, in microseconds. -/
def runTime : Nat := 1000

/-- The program and the first words that the first line of a script names, if it names one. -/
def interpreter? (bytes : List UInt8) : Option (List String) :=
  match octets (bytes.takeWhile (· != Stream.newline)) with
  | '#' :: '!' :: rest => some ((rest.splitOn ' ').map String.ofList |>.filter fun w => !w.isEmpty)
  | _ => none

/-- Runs the program of some words, or the script by the program that its first line names. -/
def launchBy (program? : List String → Option (Sh Unit)) : Program.Launcher
  | [] => return some .absent
  | name :: args => do
    match ← lookUp name with
    | .error refusal => return some refusal
    | .ok target =>
      let words := match target with
        | .program _ => name :: args
        | .script path bytes => (interpreter? bytes).getD ["/bin/sh"] ++ path :: args
      match program? words with
      | some act => do
        pass runTime
        isolated act
        return none
      | none => return some .absent

/-- **Runs a program that is not part of the shell;** `none` if there is no such program. Programs
that run others may be nested at most `fuel` deep. -/
def external? (run : Script → Sh Unit) : Nat → List String → Option (Sh Unit)
  | 0, _ => none
  | _ + 1, [] => none
  | fuel + 1, name :: args =>
    let launcher := launchBy (external? run fuel)
    match bareName name with
    | "nice" => some (Program.nice launcher args)
    | "nohup" => some (Program.nohup launcher args)
    | "env" => some (Program.env launcher args)
    | "find" => some (Program.find launcher args)
    | "awk" => some (Program.awk "awk" launcher args)
    | "mawk" => some (Program.awk "mawk" launcher args)
    | "printenv" => some (Program.printenv args)
    | "timeout" => some (Program.timeout launcher args)
    | "xargs" => some (Program.xargs launcher args)
    | "which" => some (which args)
    | "sh" | "dash" | "bash" => some (innerShell run name args)
    | bare => (programs.lookup bare).map fun program => program args

/-- How deep programs that run others may be nested. -/
def maxNesting : Nat := 100

/-- Runs the program or the script of some words as a process of its own. -/
def launch (run : Script → Sh Unit) : Program.Launcher := launchBy (external? run maxNesting)

/-- Tells that words could not be run; a command that looked for them is told of in front. -/
def tellRefusal (command name : String) (refusal : Program.Refusal) : Sh Unit := do
  let text := name ++ ": " ++ (match refusal with
    | .absent => "not found"
    | .forbidden => "Permission denied")
  if command.isEmpty then tell text else report (command ++ text)
  finish (if command.isEmpty && !name.toList.contains '/' then 127 else refusal.code)

end Sh

end Arbor.Shell
