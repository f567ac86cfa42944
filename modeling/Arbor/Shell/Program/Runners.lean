import Arbor.Shell.Builtin
import Arbor.Shell.Program.Options

/-! # Programs that run others

They run a program with other variables, with a lower priority, for a limited time, or with words
from the input. How to run it is given to them as a `Launcher`. -/

namespace Arbor.Shell.Program

/-- Runs words by a launcher. If they cannot be run, it is told why, behind `front`. -/
def launch (front : String) (launcher : Launcher) (words : List String) : Sh Unit := do
  match ← launcher words with
  | none => pure ()
  | some refusal =>
    fail refusal.code (front ++ Names.quoted (words.headD "") ++ ": " ++ refusal.reason)

/-! ### Priority -/

/-- The whole number of a text that may have a sign. -/
def adjustment? (s : String) : Option Int := int? s

/-- The arguments of `nice` as they would be written today: a number as an option is the
lowering. -/
def niceArguments : List String → List String
  | arg :: rest =>
    match arg.toList with
    | '-' :: c :: cs =>
      if c.isDigit || ((c == '-' || c == '+') && cs.head?.any Char.isDigit) then
        "-n" :: String.ofList (c :: cs) :: rest
      else arg :: rest
    | _ => arg :: rest
  | [] => []

/-- Runs a program with a lower priority, or writes the priority. -/
def nice (launcher : Launcher) : Program := fun args =>
  let usage : Usage := {
    program := "nice", code := 125, letters := "n:", names := [("adjustment=", 'n')]
    ordered := true }
  usage.checked (fun a => do
    let given := a.value? 'n'
    match given, given.bind adjustment?, a.words with
    | some n, none, _ => fail 125 ("nice: invalid adjustment " ++ Names.argument n)
    | some _, some _, [] => usage.refuse "a command must be given with an adjustment"
    | none, _, [] => Sh.say (Nat.repr (← get).niceness ++ "\n")
    | _, n, words => do
      modify fun s => { s with niceness := (min 19 ((s.niceness : Int) + n.getD 10)).toNat }
      launch "nice: " launcher words) (niceArguments args)

/-- Runs a program that a hang-up does not end. -/
def nohup (launcher : Launcher) : Program :=
  let usage : Usage :=
    { program := "nohup", code := 125, letters := "", names := [], ordered := true }
  usage.checked fun a =>
    if a.words.isEmpty then usage.refuse "missing operand"
    else launch "nohup: failed to run command " launcher a.words

/-! ### Variables -/

/-- Writes the variables that programs see, each with an end. -/
def listEnvironment (ending : String) : Sh Unit := do
  let s ← get
  for (name, value) in s.bindings.filter fun v => s.exported.contains v.1 do
    Sh.say (name ++ "=" ++ value ++ ending)
  Sh.finish 0

/-- Sets the variables that are given in front of a program; the words behind them. -/
def setGiven : List String → Sh (List String)
  | [] => return []
  | arg :: rest => do
    if arg.toList.contains '=' then
      let name := String.ofList (arg.toList.takeWhile (· != '='))
      modify fun s => { s with
        bindings := s.bindings.put name (String.ofList (arg.toList.drop (name.length + 1)))
        exported := name :: s.exported }
      setGiven rest
    else return arg :: rest

/-- The words of a text, with quotes and escapes: the words so far, the one that is read backwards,
and the quote that is open. -/
def splitQuoted : List String → Option (List Char) → Option Char → List Char → List String
  | done, word, _, [] => done ++ (word.map fun w => String.ofList w.reverse).toList
  | done, word, none, '\\' :: c :: rest => splitQuoted done (some (c :: word.getD [])) none rest
  | done, word, some q, c :: rest =>
    if c == q then splitQuoted done word none rest
    else splitQuoted done (some (c :: word.getD [])) (some q) rest
  | done, word, none, c :: rest =>
    if c == '\'' || c == '"' then splitQuoted done (some (word.getD [])) (some c) rest
    else if c == ' ' || c == '\t' || c == '\n' then
      splitQuoted (done ++ (word.map fun w => String.ofList w.reverse).toList) none none rest
    else splitQuoted done (some (c :: word.getD [])) none rest

/-- The options of `env`. -/
def envUsage : Usage where
  program := "env"
  code := 125
  letters := "iu:0C:S:v"
  names := [("ignore-environment", 'i'), ("unset=", 'u'), ("null", '0'), ("chdir=", 'C'),
    ("split-string=", 'S'), ("debug", 'v')]
  ordered := true

/-- Runs a program with other variables and in another folder, or writes the variables. -/
def env (launcher : Launcher) : Program := envUsage.checked fun a => do
  let (bare, words) := match a.words with
    | "-" :: rest => (true, rest)
    | words => (a.has 'i', words)
  let words := (a.allOf 'S').flatMap (fun t => splitQuoted [] none none t.toList) ++ words
  let removed := a.allOf 'u'
  modify fun s => { s with
    exported := if bare then [] else s.exported.filter fun n => !removed.contains n
    bindings := s.bindings.filter fun v => !removed.contains v.1 }
  let words ← setGiven words
  match a.value? 'C' with
  | none => pure ()
  | some folder => do
    let path ← Sh.locate folder
    match (← get).files.status true path with
    | .ok (_, .folder) => modify fun s => { s with cwd := path }
    | .ok _ => do
      fail 125 ("env: cannot change directory to " ++ Names.quoted folder ++ ": Not a directory")
    | .error e => do
      fail 125 ("env: cannot change directory to " ++ Names.quoted folder ++ ": " ++ e.reason)
  if (← get).status = 0 then
    if words.isEmpty then listEnvironment (if a.has '0' then "\x00" else "\n")
    else launch "env: " launcher words

/-- Writes the values of variables that programs see. -/
def printenv : Program := fun args => do
  if args.isEmpty then listEnvironment "\n"
  else do
    let s ← get
    Sh.finish 0
    for name in args do
      match if s.exported.contains name then s.bindings.get? name else none with
      | some value => Sh.say (value ++ "\n")
      | none => Sh.finish 1

/-! ### Time -/

/-- The options of `timeout`. -/
def timeoutUsage : Usage where
  program := "timeout"
  code := 125
  letters := "k:s:v"
  names := [("kill-after=", 'k'), ("signal=", 's'), ("verbose", 'v'), ("preserve-status", 'p'),
    ("foreground", 'f')]
  ordered := true

/-- The signal of a text: a number, or a name with `SIG` in front or not. -/
def signalOf? (s : String) : Option Nat :=
  let upper := s.map Char.toUpper
  (count? s).or (Signal.number?
    (if upper.startsWith "SIG" then String.ofList (upper.toList.drop 3) else upper))

/-- The program is stopped because its time is up, as told by the options. -/
def stopped (a : Arguments) (signal : Nat) (name : String) : Sh Unit := do
  if a.has 'v' then
    Sh.complain ("timeout: sending signal " ++ (Signal.name? signal).getD "0" ++ " to command " ++
      Names.argument name)
  if signal = 9 then throw (.killed 9)
  Sh.finish (if a.has 'p' then 128 + signal else 124)

/-- Runs a program for no longer than a span. -/
def timeout (launcher : Launcher) : Program := timeoutUsage.checked fun a => do
  let badSpan := fun (t : String) =>
    timeoutUsage.refuse ("invalid time interval " ++ Names.argument t)
  match (a.value? 'k').filter fun t => (span? t).isNone, signalOf? ((a.value? 's').getD "TERM") with
  | some t, _ => badSpan t
  | none, none => timeoutUsage.refuse (Names.argument ((a.value? 's').getD "") ++
      ": invalid signal")
  | none, some signal =>
    match a.words with
    | span :: word :: words =>
      match span? span with
      | none => badSpan span
      | some n => do
        let before ← get
        let ending := if n = 0 then before.limit else before.now + n
        modify fun s => { s with limit := min s.limit ending }
        try launch "timeout: failed to run command " launcher (word :: words)
        catch
          | .overrun =>
            if before.limit ≤ ending then throw .overrun
            else do
              modify fun s => { s with now := ending, limit := before.limit }
              stopped a signal word
          | stop => throw stop
    | _ => fail 125 timeoutUsage.advice

/-! ### Words from the input -/

/-- The words of an input, line by line, and the quote that is left open behind them. -/
structure Supply where
  lines : List (List String)
  openQuote : Option Char

/-- What is read of an input so far: the lines that are complete, the words of the current line,
both backwards, the word that is read, backwards too, and whether a blank was read last. -/
structure Reading where
  lines : List (List String)
  words : List String
  word : Option (List Char)
  blank : Bool

namespace Reading

/-- Reads a character of a word. -/
def add (r : Reading) (c : Char) : Reading :=
  { r with word := some (c :: r.word.getD []), blank := false }

/-- Ends the word that is read. -/
def endWord (r : Reading) : Reading :=
  { r with words := (r.word.map fun w => String.ofList w.reverse).toList ++ r.words, word := none }

/-- Ends the line. A blank at its end joins it to the next one. -/
def endLine (r : Reading) : Reading :=
  let r := r.endWord
  if r.words.isEmpty || r.blank then { r with blank := false }
  else { r with lines := r.words.reverse :: r.lines, words := [] }

/-- What was read at the end. -/
def supply (r : Reading) (openQuote : Option Char) : Supply :=
  let r := if openQuote.isSome then { r with word := none } else r
  ⟨({ r with blank := false }).endLine.lines.reverse, openQuote⟩

end Reading

/-- The words of an input with quotes and escapes. With `wholeLines` each line is one word, from its
first character that is no blank. -/
def readSupply (wholeLines : Bool) : Option Char → Reading → List Char → Supply
  | quote, r, [] => r.supply quote
  | none, r, '\\' :: c :: rest => readSupply wholeLines none (r.add c) rest
  | some q, r, c :: rest =>
    if c == '\n' then r.supply (some q)
    else if c == q then readSupply wholeLines none { r with word := some (r.word.getD []) } rest
    else readSupply wholeLines (some q) (r.add c) rest
  | none, r, c :: rest =>
    if c == '\n' then
      readSupply wholeLines none (if wholeLines then { r with blank := false }.endLine
        else r.endLine)
        rest
    else if c == '\'' || c == '"' then
      readSupply wholeLines (some c) { r with word := some (r.word.getD []) } rest
    else if c == ' ' || c == '\t' then
      readSupply wholeLines none
        (if wholeLines then (if r.word.isSome then r.add c else r)
          else { r.endWord with blank := true })
        rest
    else readSupply wholeLines none (r.add c) rest

/-- The items of an input that one character divides. -/
def divided (delimiter : Char) (cs : List Char) : Supply :=
  let items := cs.splitOn delimiter
  let items := if items.getLast? = some [] then items.dropLast else items
  ⟨items.map fun i => [String.ofList i], none⟩

/-- The options of `xargs`. -/
def xargsUsage : Usage where
  program := "xargs"
  code := 1
  letters := "0a:d:E:e::I:i::L:l::n:oP:prs:tx"
  names := [("null", '0'), ("arg-file=", 'a'), ("delimiter=", 'd'), ("eof=?", 'e'),
    ("replace=?", 'i'),
    ("max-lines=?", 'l'), ("max-args=", 'n'), ("open-tty", 'o'), ("max-procs=", 'P'),
    ("interactive", 'p'), ("no-run-if-empty", 'r'), ("max-chars=", 's'), ("verbose", 't'),
    ("exit", 'x')]
  ordered := true

/-- How the words of an input are given to a program. -/
inductive Portion where
  | all
  /-- So many words at a time. -/
  | words (n : Nat)
  /-- So many lines at a time. -/
  | lines (n : Nat)
  /-- Each line in the place of a mark. -/
  | marked (mark : String)
  deriving DecidableEq, Repr

/-- How a portion is called when another takes its place. -/
def Portion.title : Portion → String
  | .all => ""
  | .words _ => "--max-args"
  | .lines _ => "--max-lines"
  | .marked _ => "--replace"

/-- A number of an option of `xargs`, which has a least value. -/
def xargsNumber (least : Int) (letter : Char) (text : String) : Except String Nat :=
  match int? text with
  | none => .error ("invalid number \"" ++ text ++ "\" for -" ++ letter.toString ++ " option")
  | some n =>
    if n < least then
      .error ("value " ++ toString n ++ " for -" ++ letter.toString ++ " option should be >= " ++
        toString least)
    else .ok n.toNat

/-- The portion that an option asks for, and how the option is called in warnings. -/
def portionOf (letter : Char) (value : String) : Except String (Option (Portion × String)) := do
  match letter with
  | 'n' => return some (.words (← xargsNumber 1 'n' value), "--max-args/-n")
  | 'L' => return some (.lines (← xargsNumber 1 'L' value), "-L")
  | 'l' => return some (.lines (← xargsNumber 1 'l' value), "--max-lines/-l")
  | 'I' | 'i' => return some (.marked value, "--replace/-I/-i")
  | _ => return none

/-- The portion that options ask for. The last one counts; it is warned of one that it takes the
place of. One word at a time goes with a mark. -/
def portion (warnings : List String) (now : Portion) :
    List (Char × String) → Except String (Portion × List String)
  | [] => .ok (now, warnings)
  | (letter, value) :: rest => do
    match ← portionOf letter value with
    | none => portion warnings now rest
    | some (next, name) =>
      match now, next with
      | .marked _, .words 1 => portion warnings now rest
      | _, _ =>
        if now.title = next.title || now = .all then portion warnings next rest
        else portion (warnings ++ ["warning: options " ++ now.title ++ " and " ++ name ++
          " are mutually exclusive, ignoring previous " ++ now.title ++ " value"]) next rest

/-- The portion with the options that need no value. -/
def wholePortion (a : Arguments) : Except String (Portion × List String) :=
  portion [] (if a.has 'i' then .marked "\x7b\x7d" else if a.has 'l' then .lines 1
    else .all) a.values

/-- Groups of at most `n` elements. -/
def groupsOf {α : Type} (n : Nat) (xs : List α) : List (List α) :=
  if n = 0 then [xs]
  else (List.range ((xs.length + n - 1) / n)).map fun i => (xs.drop (i * n)).take n

/-- Cuts a group of words where it would take more than `room` bytes. -/
def fitting (room : Nat) : Nat → List String → List String → List (List String)
  | _, group, [] => if group.isEmpty then [] else [group.reverse]
  | used, group, w :: rest =>
    let size := w.utf8ByteSize + 1
    if group.isEmpty || used + size ≤ room then fitting room (used + size) (w :: group) rest
    else group.reverse :: fitting room size [w] rest

/-- The command lines for the words of an input. -/
def commandLines (a : Arguments) (p : Portion) (words : List String) (lines : List (List String)) :
    List (List String) :=
  let base := (words.map fun w => w.utf8ByteSize + 1).foldl (· + ·) 0
  let cut := fun (group : List String) =>
    match (a.value? 's').bind count? with
    | some size => (fitting (size - base) 0 [] group).map (words ++ ·)
    | none => [words ++ group]
  if lines.isEmpty then
    if a.has 'r' || p matches .marked _ then [] else [words]
  else
    match p with
    | .all => cut lines.flatten
    | .words n => (groupsOf n lines.flatten).flatMap cut
    | .lines n => (groupsOf n lines).flatMap fun g => cut g.flatten
    | .marked mark => lines.map fun line =>
        words.take 1 ++ (words.drop 1).map fun w => w.replace mark (String.intercalate " " line)

/-- The character that an argument names as delimiter. -/
def delimiter (text : String) : Except String Char :=
  match text.toList with
  | [c] => .ok c
  | ['\\', 'n'] => .ok '\n'
  | ['\\', 't'] => .ok '\t'
  | ['\\', 'r'] => .ok '\r'
  | ['\\', 'f'] => .ok (Char.ofNat 12)
  | ['\\', 'v'] => .ok (Char.ofNat 11)
  | ['\\', 'a'] => .ok (Char.ofNat 7)
  | ['\\', 'b'] => .ok (Char.ofNat 8)
  | ['\\', '\\'] => .ok '\\'
  | '\\' :: 'x' :: digits => .ok (Char.ofNat (Format.readDigits 16 digits).1)
  | '\\' :: c :: digits =>
    if c.isDigit then .ok (Char.ofNat (Format.readDigits 8 (c :: digits)).1)
    else .error ("Invalid escape sequence " ++ text ++ " in input delimiter specification.")
  | _ => .error ("Invalid input delimiter specification " ++ text ++
      ": the delimiter must be either a single character or an escape sequence starting with \\.")

/-- The words of an input, as the options say. -/
def supplyOf (a : Arguments) (p : Portion) (cs : List Char) : Except String Supply := do
  match a.value? 'd' with
  | some text => return divided (← delimiter text) cs
  | none =>
    if a.has '0' then return divided (Char.ofNat 0) cs
    let s := readSupply (p matches .marked _) none ⟨[], [], none, false⟩ cs
    match (a.value? 'E').or (a.value? 'e') with
    | none => return s
    | some ending =>
      let before := s.lines.takeWhile fun l => !l.contains ending
      let here := ((s.lines.drop before.length).headD []).takeWhile (· != ending)
      return { s with lines := before ++ if here.isEmpty then [] else [here] }

/-- Runs command lines one by one; the exit code for all of them. -/
def runLines (launcher : Launcher) (loud : Bool) : Nat → List (List String) → Sh Nat
  | code, [] => return code
  | code, line :: rest => do
    if loud then Sh.complain (String.intercalate " " (line.map Names.last))
    let name := line.headD ""
    let (refusal, signal) ← try pure (← launcher line, none)
      catch
        | .killed signal => pure (none, some signal)
        | stop => throw stop
    let status := (← get).status
    match refusal, signal with
    | some refusal, _ => do
      Sh.complain ("xargs: " ++ name ++ ": " ++ refusal.reason)
      return refusal.code
    | none, some signal => do
      Sh.complain ("xargs: " ++ name ++ ": terminated by signal " ++ Nat.repr signal)
      return 125
    | none, none =>
      if status = 255 then do
        Sh.complain ("xargs: " ++ name ++ ": exited with status 255; aborting")
        return 124
      else runLines launcher loud (if status = 0 then code else 123) rest

/-- The quote by its name. -/
def quoteName (c : Char) : String := if c == '"' then "double" else "single"

/-- Runs a program with words from the input. -/
def xargs (launcher : Launcher) : Program := xargsUsage.checked fun a => do
  let numbers := do
    let p ← wholePortion a
    let _ ← (a.allOf 'P').mapM (xargsNumber 0 'P')
    let _ ← (a.allOf 's').mapM (xargsNumber 1 's')
    return p
  match numbers with
  | .error text => xargsUsage.refuse text
  | .ok (p, warnings) => do
    warnings.forM fun w => Sh.complain ("xargs: " ++ w)
    let content ← match a.value? 'a' with
      | some file => Sh.readFile file
      | none => source "-"
    match content with
    | .error e =>
      fail 1 ("xargs: Cannot open input file " ++ Names.quoted ((a.value? 'a').getD "-") ++ ": " ++
        e.reason)
    | .ok s => do
      let words := if a.words.isEmpty then ["echo"] else a.words
      match supplyOf a p (Text.decode (← whole s)) with
      | .error text => fail 1 ("xargs: " ++ text)
      | .ok supply => do
        Sh.openInput 0 .none
        let code ← runLines launcher (a.has 't') 0 (commandLines a p words supply.lines)
        Sh.finish code
        match supply.openQuote with
        | some q => fail 1 ("xargs: unmatched " ++ quoteName q ++
            " quote; by default quotes are special to xargs unless you use the -0 option")
        | none => pure ()

end Arbor.Shell.Program
