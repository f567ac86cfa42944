import Arbor.Shell.External
import Arbor.Shell.Redirection

/-! # Running a shell command

`Script.run` runs a command in a state. Stages of a pipeline run one behind the other, each with
what the one before has written, and take the time of the longest. A shell that runs for too long,
or without end, is stopped. -/

namespace Arbor.Shell

namespace Sh

/-! ### Words that name commands -/

/-- The commands of the shell that run others. -/
def runningNames : List String := [".", "command", "eval", "exec", "hash", "type"]

/-- The name is that of a command of the shell. -/
def isBuiltin (run : Script → Sh Unit) (name : String) : Bool :=
  ((builtins run).map Prod.fst ++ runningNames).contains name

/-- The path of what a name stands for. A name with a slash is its own path, if there is a file. -/
def pathOf? (name : String) : Sh (Option String) := do
  match ← lookUp name with
  | .ok (.program path) => return some path
  | .ok (.script path _) => return some path
  | .error .forbidden => return if name.toList.contains '/' then some name else none
  | .error .absent => return none

/-- Tells what a name stands for, in words. -/
def describe (run : Script → Sh Unit) (name : String) : Sh Unit := do
  let s ← get
  if Script.keywords.contains name then say (name ++ " is a shell keyword\n")
  else if (s.functions.lookup name).isSome then say (name ++ " is a shell function\n")
  else if isBuiltin run name then
    say (name ++ " is a " ++ (if specialNames.contains name then "special " else "") ++
      "shell builtin\n")
  else
    match ← pathOf? name with
    | some path => say (name ++ " is " ++ path ++ "\n")
    | none => do
      say (name ++ ": not found\n")
      finish 127

/-- Tells what would be run for a name. -/
def resolve (run : Script → Sh Unit) (name : String) : Sh Unit := do
  let s ← get
  if Script.keywords.contains name || (s.functions.lookup name).isSome || isBuiltin run name then
    say (name ++ "\n")
  else
    match ← pathOf? name with
    | some path => say (path ++ "\n")
    | none => finish 127

/-- Runs the lines of a file in this shell. -/
def source (run : Script → Sh Unit) (file : String) (arguments : List String) : Sh Unit := do
  if !file.toList.contains '/' then refuse (".: " ++ file ++ ": not found")
  match ← readFile file with
  | .error _ => refuse (".: cannot open " ++ file ++ ": No such file")
  | .ok script => do
    let before ← get
    if !arguments.isEmpty then modify fun s => { s with arguments := arguments }
    finish 0
    try within (file ++ ": ") (runText run (Text.decode script.start))
    catch
      | .returned code => finish code
      | stop => throw stop
    modify fun s => { s with arguments := before.arguments, line := before.line }

/-- Runs a function. What it makes local ends with it. -/
def call (run : Script → Sh Unit) (body : Script) (args : List String) : Sh Unit := do
  let before ← get
  modify fun s => { s with arguments := args, locals := some [], loops := 0 }
  try run body
  catch
    | .returned code => finish code
    | stop => throw stop
  let made := (← get).locals.getD []
  modify fun s => { s with
    arguments := before.arguments
    locals := before.locals
    loops := before.loops
    bindings := made.foldl (fun t b => match b.2 with
      | some value => t.put b.1 value
      | none => t.drop b.1) s.bindings }

/-- Says that what a command of the shell has written cannot be written, if the output is closed. -/
def checkOutput (name : String) : Sh Unit := do
  if ["echo", "printf", "pwd", "type"].contains name && ((← get).sinks.lookup 1).isNone then
    report (name ++ ": " ++ name ++ ": I/O error")
    finish 1

/-- Runs a command that is no function and runs no other. -/
def plainCommand (run : Script → Sh Unit) (name : String) (args : List String) : Sh Unit := do
  match (builtins run).lookup name with
  | some builtin => do
    builtin args
    checkOutput name
  | none =>
    try
      match ← launch run (name :: args) with
      | none => pure ()
      | some refusal => tellRefusal "" name refusal
    catch
      | .killed signal => do
        match Signal.ending? signal with
        | some text => complain text
        | none => pure ()
        finish (128 + signal)
      | stop => throw stop

/-- Runs the command of some words that is no function. -/
def ownCommand (run : Script → Sh Unit) : Nat → String → List String → Sh Unit
  | 0, _, _ => throw .overrun
  | fuel + 1, name, args => do
    match name, args with
    | "eval", _ => do
      finish 0
      within "eval: " (runText run (String.intercalate " " args).toList)
    | "exec", [] => finish 0
    | "exec", first :: _ => do
      match ← launch run args with
      | none => pure ()
      | some refusal => tellRefusal "exec: " first refusal
      throw (.exit (← get).status)
    | ".", [] => finish 0
    | ".", file :: rest => source run file rest
    | "type", _ => do
      finish 0
      args.forM (describe run)
    | "hash", _ => hash (fun n => isBuiltin run n || (which? n).isSome) args
    | "command", "-v" :: rest => do
      finish 0
      (rest.take 1).forM (resolve run)
    | "command", "-V" :: rest => do
      finish 0
      (rest.take 1).forM (describe run)
    | "command", "-p" :: rest => ownCommand run fuel "command" rest
    | "command", [] => finish 0
    | "command", first :: rest => ownCommand run fuel first rest
    | _, _ => plainCommand run name args

/-- Runs the command of some words. -/
def command (run : Script → Sh Unit) (name : String) (args : List String) : Sh Unit := do
  let function? := (← get).functions.lookup name
  match if specialNames.contains name then none else function? with
  | some body => call run body args
  | none => ownCommand run (args.length + 2) name args

/-! ### Simple commands -/

/-- The parts of a word hold a command. -/
def holdsCommand (w : Word) : Bool := w.any fun p => p matches .output _ _

/-- Sets variables, and returns what was set. -/
def applySettings (run : Script → Sh Unit) : List (String × Word) → Sh (List (String × String))
  | [] => return []
  | (name, word) :: rest => do
    let value ← textOf run word
    setVariable name value
    return (name, value) :: (← applySettings run rest)

/-- Writes a command before it runs, if the shell is traced. -/
def trace (settings : List (String × String)) (words : List String) : Sh Unit := do
  if (← get).settings.traced then
    complain (String.intercalate " " ("+" :: settings.map (fun s => s.1 ++ "=" ++ s.2) ++ words))

/-- Runs a command with variables that are set for it alone, unless it is a special one. -/
def withSettings (run : Script → Sh Unit) (settings : List (String × Word)) (words : List String)
    (special : Bool) (act : Sh Unit) : Sh Unit := do
  let before ← get
  let values ← applySettings run settings
  trace values words
  if special then act
  else do
    modify fun s => { s with exported := values.map Prod.fst ++ s.exported }
    act
    if !values.isEmpty then
      modify fun s => { s with
        exported := before.exported
        bindings := values.foldl (fun t v => match before.bindings.get? v.1 with
          | some value => t.put v.1 value
          | none => t.drop v.1) s.bindings }

/-- Runs a simple command. -/
def simple (run : Script → Sh Unit) (settings : List (String × Word)) (words : List Word)
    (rs : List Redirect) : Sh Unit := do
  match ← expandWords run words with
  | [] => do
    redirected run false rs do
      let values ← applySettings run settings
      if !values.isEmpty then trace values []
      if !(settings.any fun s => holdsCommand s.2) && !(words.any holdsCommand) then finish 0
  | ["exec"] => do
    finish 0
    if !(← redirectAll run rs) then throw (.exit 2)
  | name :: args => do
    let special := specialNames.contains name
    withSettings run settings (name :: args) special
      (redirected run special rs (command run name args))

/-! ### Compound commands -/

/-- Runs the body of a loop; whether the loop goes on. -/
def round (act : Sh Unit) : Sh Bool := do
  try
    act
    return true
  catch
    | .leaveLoop n => if n ≤ 1 then return false else throw (.leaveLoop (n - 1))
    | .nextRound n => if n ≤ 1 then return true else throw (.nextRound (n - 1))
    | stop => throw stop

/-- Runs a loop, which commands in it can leave. -/
def looped (act : Sh Unit) : Sh Unit := do
  let before := (← get).loops
  modify fun s => { s with loops := before + 1 }
  try act
  catch stop => do
    modify fun s => { s with loops := before }
    throw stop
  modify fun s => { s with loops := before }

/-- Runs the body of a loop for each value. -/
def eachValue (name : String) (act : Sh Unit) : List String → Sh Unit
  | [] => return ()
  | value :: rest => do
    setVariable name value
    if ← round act then eachValue name act rest

/-- How many rounds of a loop may come before it is taken to run without end. -/
def maxRounds : Nat := 20000

/-- Runs a loop of at most so many rounds; `last` is its exit code if no more come. -/
def rounds (succeeds : Bool) (condition act : Sh Unit) : Nat → Nat → Sh Unit
  | 0, _ => throw .overrun
  | left + 1, last => do
    if (← probed condition) == succeeds then
      if ← round act then rounds succeeds condition act left (← get).status
    else finish last

/-- Runs the stages of a pipeline that started at a time. -/
def stages (run : Script → Sh Unit) (start : Nat) : List Script → Sh Unit
  | [] => return ()
  | [last] => subshell run (run last)
  | stage :: rest => do
    let out ← captured (subshell run (run stage))
    let ending := (← get).now
    modify fun s => { s with now := start }
    withInput (.pipe out) (stages run start rest)
    modify fun s => { s with now := max s.now ending }

/-- Ends a strict shell whose last command failed and is not looked at. -/
def checkStrict : Sh Unit := do
  let s ← get
  if s.settings.strict && !s.tested && s.status ≠ 0 then throw (.exit s.status)

/-- The branch of a choice whose pattern fits. -/
def branch (run : Script → Sh Unit) (text : String) : List (List Word × Script) → Sh Unit
  | [] => finish 0
  | (patterns, body) :: rest => do
    let fitting ← patterns.anyM fun p => do return Pattern.fits (← patternOf run p) text
    if fitting then run body else branch run text rest

end Sh

namespace Script

open Sh

/-- Runs a command, with what is inside of it run by `run`. -/
def step (run : Script → Sh Unit) : Script → Sh Unit
  | .nothing => return ()
  | .simple line settings words rs => do
    receiveAll run
    if (← get).settings.idle then return ()
    modify fun s => { s with line := line }
    Sh.simple run settings words rs
    checkStrict
  | .pipeline negated parts => do
    let start := (← get).now
    if negated then do
      let ok ← probed (match parts with
        | [part] => run part
        | parts => stages run start parts)
      finish (if ok then 1 else 0)
    else do
      stages run start parts
      checkStrict
  | .both first second => do
    if ← probed (run first) then run second
  | .either first second => do
    if !(← probed (run first)) then run second
  | .sequence first second => do
    run first
    run second
  | .background body => inBackground run (isDetached body) (run body)
  | .subshell body => do
    Sh.subshell run (run body)
    checkStrict
  | .redirected body rs => Sh.redirected run false rs (run body)
  | .choose condition yes no => do
    if ← probed (run condition) then run yes
    else do
      finish 0
      run no
  | .loop succeeds condition body =>
    looped (rounds succeeds (run condition) (run body) maxRounds 0)
  | .each name words body => do
    let values ← expandWords run words
    finish 0
    looped (eachValue name (run body) values)
  | .define name body => do
    modify fun s => { s with functions := (name, body) :: s.functions.filter fun f => f.1 != name }
    finish 0
  | .select word branches => do
    branch run (← textOf run word) branches

/-- Runs a command that is nested at most `depth` deep; a deeper one is taken to run without end. -/
def runWithin : Nat → Script → Sh Unit
  | 0, _ => throw .overrun
  | depth + 1, script => step (runWithin depth) script

/-- How deep commands may be nested. -/
def maxDepth : Nat := 1000

/-- **Runs a command.** -/
def run : Script → Sh Unit := runWithin maxDepth

/-- **Runs the script of a text as a shell,** up to its end. -/
def runShell (text : String) : Sh Unit := session run (runText run text.toList)

end Script

end Arbor.Shell
