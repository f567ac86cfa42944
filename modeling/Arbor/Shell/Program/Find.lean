import Arbor.Shell.Program.Search

/-! # Searching for entries

`find` goes through folders and asks of each entry whether an expression holds. An expression is
made of questions about the entry and of actions, joined by "and", "or" and "not"; an action is done
when the question before it holds. -/

namespace Arbor.Shell.Program

namespace Find

/-- An expression. -/
inductive Rule where
  | always (value : Bool)
  | name (folded : Bool) (pattern : String)
  | path (folded : Bool) (pattern : String)
  | regex (r : Regex)
  | type (letters : List Char)
  | empty
  /-- The size in units, rounded up, is less than, equal to or more than a number. -/
  | size (order : Ordering) (count unit : Nat)
  | rights (mode : Nat)
  | print (ending : String)
  | format (text : String)
  | delete
  | prune
  | quit
  /-- A program is run for the entry. -/
  | run (words : List String)
  /-- A program is run at the end for all entries. -/
  | runAll (number : Nat) (words : List String)
  | not (r : Rule)
  | both (a b : Rule)
  | either (a b : Rule)
  /-- Both are done, and the second counts. -/
  | list (a b : Rule)

/-- The expression has an action that writes or changes something. -/
def Rule.acts : Rule → Bool
  | .print _ => true
  | .format _ => true
  | .delete => true
  | .run _ => true
  | .runAll _ _ => true
  | .quit => true
  | .not r => r.acts
  | .both a b => a.acts || b.acts
  | .either a b => a.acts || b.acts
  | .list a b => a.acts || b.acts
  | _ => false

/-- The expression removes entries. -/
def Rule.deletes : Rule → Bool
  | .delete => true
  | .not r => r.deletes
  | .both a b => a.deletes || b.deletes
  | .either a b => a.deletes || b.deletes
  | .list a b => a.deletes || b.deletes
  | _ => false

/-- How folders are gone through. -/
structure Manner where
  least : Nat
  most : Option Nat
  /-- A folder comes behind what it holds. -/
  deep : Bool
  /-- Links are followed. -/
  follows : Bool

/-! ### Reading -/

/-- What has been read of an expression: the rule, the manner and the arguments that are left. -/
abbrev Reading := Except String (Rule × Manner × List String)

/-- The units of sizes. -/
def units : List (Char × Nat) :=
  [('c', 1), ('w', 2), ('b', 512), ('k', 1024), ('M', 1048576), ('G', 1073741824)]

/-- The question about a size. -/
def readSize (text : String) : Except String Rule :=
  let (order, cs) : Ordering × List Char := match text.toList with
    | '+' :: cs => (.gt, cs)
    | '-' :: cs => (.lt, cs)
    | cs => (.eq, cs)
  let digits := cs.takeWhile Char.isDigit
  let unit := match cs.drop digits.length with
    | [] => some 512
    | [c] => units.lookup c
    | _ => none
  match count? (String.ofList digits), unit with
  | some n, some u => .ok (.size order n u)
  | _, _ => .error ("invalid -size type \x60" ++ text ++ "'")

/-- The words of a program up to a semicolon or a plus, and what is behind; whether it is run for
all entries at once. -/
def readWords : List String → List String → Option (List String × Bool × List String)
  | _, [] => none
  | words, ";" :: rest => some (words, false, rest)
  | words, "+" :: rest =>
    if words.getLast? = some "\x7b\x7d" then some (words.dropLast, true, rest)
    else readWords (words ++ ["+"]) rest
  | words, w :: rest => readWords (words ++ [w]) rest

/-- A question or an action that has an argument. -/
def readValued (m : Manner) (sign value : String) (rest : List String) : Option Reading :=
  let ok := fun (r : Rule) => some (.ok (r, m, rest))
  let depth := fun (f : Nat → Manner) => match count? value with
    | some n => some (.ok (.always true, f n, rest))
    | none => some (.error ("Expected a positive decimal integer argument to " ++ sign ++
        ", but got " ++ Names.argument value))
  match sign with
  | "-name" => ok (.name false value)
  | "-iname" => ok (.name true value)
  | "-path" | "-wholename" => ok (.path false value)
  | "-ipath" | "-iwholename" => ok (.path true value)
  | "-regex" => some (match Regex.parse .basic (octetsOf value) with
      | .ok r => .ok (.regex r, m, rest)
      | .error fault => .error fault.message)
  | "-type" | "-xtype" =>
    let letters := value.toList.filter (· != ',')
    match letters.find? fun c => !"bcdpflsD".toList.contains c with
    | some c => some (.error ("Unknown argument to -type: " ++ c.toString))
    | none => ok (.type letters)
  | "-size" => some ((readSize value).map fun r => (r, m, rest))
  | "-perm" =>
    match Rights.Change.read? value with
    | some change => ok (.rights (change.apply false 0))
    | none => some (.error ("invalid mode " ++ Names.argument value))
  | "-printf" => ok (.format value)
  | "-maxdepth" => depth fun n => { m with most := some n }
  | "-mindepth" => depth fun n => { m with least := n }
  | "-user" | "-group" => ok (.always (value = "root" || value = "0"))
  | "-mtime" | "-mmin" | "-atime" | "-ctime" => ok (.always true)
  | "-newer" => ok (.always false)
  | "-links" => ok (.always true)
  | _ => none

/-- The questions and actions without arguments. -/
def plainRules : List (String × Rule) :=
  [("-empty", .empty), ("-print", .print "\n"),
    ("-print0", .print (String.singleton (Char.ofNat 0))),
    ("-delete", .delete), ("-prune", .prune), ("-quit", .quit), ("-true", .always true),
    ("-false", .always false), ("-readable", .always true), ("-writable", .always true),
    ("-executable", .rights 0o111), ("-nogroup", .always false), ("-nouser", .always false)]

/-- One question or action. -/
def readRule (m : Manner) (sign : String) (rest : List String) : Reading :=
  match plainRules.lookup sign with
  | some rule => .ok (rule, if sign = "-delete" then { m with deep := true } else m, rest)
  | none =>
    if sign = "-depth" then .ok (.always true, { m with deep := true }, rest)
    else if sign = "-follow" then .ok (.always true, { m with follows := true }, rest)
    else if sign = "-exec" || sign = "-execdir" then
      match readWords [] rest with
      | none => .error ("missing argument to \x60" ++ sign ++ "'")
      | some ([], _, _) => .error ("missing argument to \x60" ++ sign ++ "'")
      | some (words, all, behind) =>
        .ok (if all then .runAll behind.length words else .run words, m, behind)
    else
      match readValued m sign (rest.headD "") (rest.drop 1) with
      | some reading =>
        if rest.isEmpty then .error ("missing argument to \x60" ++ sign ++ "'") else reading
      | none =>
        if sign.startsWith "-" then .error ("unknown predicate \x60" ++ sign ++ "'")
        else .error ("paths must precede expression: \x60" ++ sign ++ "'")

mutual

/-- Rules between commas. -/
def readList : Nat → Manner → List String → Reading
  | 0, m, args => .ok (.always true, m, args)
  | fuel + 1, m, args => do
    let (a, m, rest) ← readEither fuel m args
    match rest with
    | "," :: rest => do
      let (b, m, rest) ← readList fuel m rest
      return (.list a b, m, rest)
    | rest => return (a, m, rest)

/-- Rules joined by "or". -/
def readEither : Nat → Manner → List String → Reading
  | 0, m, args => .ok (.always true, m, args)
  | fuel + 1, m, args => do
    let (a, m, rest) ← readBoth fuel m args
    match rest with
    | sign :: more =>
      if sign = "-o" || sign = "-or" then
        if more.isEmpty then throw ("expected an expression after '" ++ sign ++ "'")
        let (b, m, rest) ← readEither fuel m more
        return (.either a b, m, rest)
      else return (a, m, rest)
    | [] => return (a, m, [])

/-- Rules one behind the other, or joined by "and". -/
def readBoth : Nat → Manner → List String → Reading
  | 0, m, args => .ok (.always true, m, args)
  | fuel + 1, m, args => do
    let (a, m, rest) ← readSingle fuel m args
    match rest with
    | [] => return (a, m, [])
    | sign :: more =>
      if ["-o", "-or", ",", ")"].contains sign then return (a, m, rest)
      else if sign = "-a" || sign = "-and" then
        if more.isEmpty then throw ("expected an expression after '" ++ sign ++ "'")
        let (b, m, rest) ← readBoth fuel m more
        return (.both a b, m, rest)
      else
        let (b, m, rest) ← readBoth fuel m rest
        return (.both a b, m, rest)

/-- A single rule. -/
def readSingle : Nat → Manner → List String → Reading
  | 0, m, args => .ok (.always true, m, args)
  | _ + 1, m, [] => .ok (.always true, m, [])
  | fuel + 1, m, sign :: rest =>
    if sign = "!" || sign = "-not" then do
      if rest.isEmpty then throw ("expected an expression after '" ++ sign ++ "'")
      let (r, m, rest) ← readSingle fuel m rest
      return (.not r, m, rest)
    else if sign = "(" then do
      let (r, m, rest) ← readList fuel m rest
      match rest with
      | ")" :: rest => return (r, m, rest)
      | _ => throw ("invalid expression; I was expecting to find a ')' somewhere " ++
          "but did not see one.")
    else if ["-o", "-or", "-a", "-and", ","].contains sign then
      throw ("invalid expression; you have used a binary operator '" ++ sign ++
        "' with nothing before it.")
    else if sign = ")" then throw "you have too many ')'"
    else readRule m sign rest

end

/-- The expression of arguments. Without an action everything that fits is printed. -/
def read (m : Manner) (args : List String) : Except String (Rule × Manner) := do
  if args.isEmpty then return (.print "\n", m)
  let (r, m, rest) ← readList (4 * args.length + 4) m args
  if rest.head? = some ")" then throw "you have too many ')'"
  return (if r.acts then r else .both r (.print "\n"), m)

/-! ### Asking -/

/-- An entry on the way. -/
structure Spot where
  path : String
  start : String
  location : Location
  entry : Entry
  depth : Nat

/-- What is known on the way. -/
structure Progress where
  pruned : Bool := false
  ended : Bool := false
  failed : Bool := false
  /-- The entries for programs that are run at the end. -/
  waiting : List (Nat × List String × List String) := []

/-- The last piece of a path. -/
def lastPiece (path : String) : String :=
  let bare := (path.toList.reverse.dropWhile (· == '/')).reverse
  if bare.isEmpty then path else String.ofList ((bare.splitOn '/').getLast?.getD [])

/-- The name of an entry. -/
def Spot.name (spot : Spot) : String := lastPiece spot.path

/-- The letter of the type of an entry. -/
def letterOf : Entry → Char
  | .folder => 'd'
  | .link _ => 'l'
  | .file _ => 'f'

/-- The path without its last piece. -/
def parentOf (path : String) : String :=
  let front := (path.toList.reverse.dropWhile (· != '/')).drop 1
  if path.toList.contains '/' then String.ofList front.reverse else "."

/-- A text with what it says about an entry filled in. -/
def Spot.fill (s : State) (spot : Spot) : List Char → String
  | '%' :: c :: rest =>
    (match c with
      | 'p' => spot.path
      | 'f' => spot.name
      | 'h' => parentOf spot.path
      | 'P' => String.ofList ((spot.path.toList.drop spot.start.length).dropWhile (· == '/'))
      | 's' => Nat.repr (sizeOf spot.entry)
      | 'y' => (letterOf spot.entry).toString
      | 'd' => Nat.repr spot.depth
      | 'm' => Rights.digits (s.mode spot.location)
      | 'M' => Rights.full spot.entry (s.mode spot.location)
      | 'u' | 'g' => "root"
      | 'l' => match spot.entry with
        | .link target => target
        | _ => ""
      | '%' => "%"
      | c => "%" ++ c.toString) ++ spot.fill s rest
  | '\\' :: 'n' :: rest => "\n" ++ spot.fill s rest
  | '\\' :: 't' :: rest => "\t" ++ spot.fill s rest
  | '\\' :: '0' :: rest => String.singleton (Char.ofNat 0) ++ spot.fill s rest
  | '\\' :: '\\' :: rest => "\\" ++ spot.fill s rest
  | c :: rest => c.toString ++ spot.fill s rest
  | [] => ""

/-- Removes an entry. -/
def remove (spot : Spot) : Sh Bool := do
  let fs := (← get).files
  let filled := spot.entry.isFolder && !(fs.children spot.location).isEmpty
  if spot.path = "." then return true
  else if filled then
    Sh.complain ("find: cannot delete " ++ Names.quoted spot.path ++ ": Directory not empty")
    return false
  else do
    modify fun s => { s with files := s.files.erase spot.location }
    return true

/-- Runs a program for an entry: whether it succeeded. -/
def launch (launcher : Launcher) (words : List String) : Sh Bool := do
  let name := Names.quoted (words.headD "")
  try
    match ← launcher words with
    | none => return (← get).status = 0
    | some refusal => do
      Sh.complain ("find: " ++ name ++ ": " ++ refusal.reason)
      return false
  catch
    | .killed signal => do
      Sh.complain ("find: " ++ name ++ " terminated by signal " ++ Nat.repr signal)
      return false
    | stop => throw stop

/-- **Asks whether a rule holds of an entry,** and does its actions on the way. -/
def ask (launcher : Launcher) (spot : Spot) : Rule → Progress → Sh (Bool × Progress)
  | .always v, p => return (v, p)
  | .name folded pattern, p =>
    let low := fun (s : String) => if folded then String.ofList (Text.lowerChars s.toList) else s
    return (fitsPattern (low pattern) (low spot.name), p)
  | .path folded pattern, p =>
    let low := fun (s : String) => if folded then String.ofList (Text.lowerChars s.toList) else s
    return (fitsPattern (low pattern) (low spot.path), p)
  | .regex r, p =>
    let cs := (octetsOf spot.path).toArray
    let whole := Regex.followed (.edge .textStart) (.followed (.group 0 r) (.edge .textEnd))
    return (whole.isIn cs, p)
  | .type letters, p => return (letters.contains (letterOf spot.entry), p)
  | .empty, p => do
    let fs := (← get).files
    return (match spot.entry with
      | .file content => content.size = 0
      | .folder => (fs.children spot.location).isEmpty
      | .link _ => false, p)
  | .size order count unit, p =>
    let n := (sizeOf spot.entry + unit - 1) / unit
    return (match order with
      | .lt => n < count
      | .eq => n = count
      | .gt => count < n, p)
  | .rights mode, p => do
    let here := (← get).mode spot.location
    return (if mode = 0o111 then Nat.land here mode ≠ 0 else here = mode, p)
  | .print ending, p => do
    Sh.say (spot.path ++ ending)
    return (true, p)
  | .format text, p => do
    Sh.say (spot.fill (← get) text.toList)
    return (true, p)
  | .delete, p => do
    let done ← remove spot
    return (done, if done then p else { p with failed := true })
  | .prune, p => return (true, { p with pruned := true })
  | .quit, p => return (true, { p with ended := true })
  | .run words, p => do
    let done ← launch launcher (words.map fun w => w.replace "\x7b\x7d" spot.path)
    return (done, p)
  | .runAll number words, p =>
    let before := ((p.waiting.find? fun w => w.1 = number).map fun w => w.2.2).getD []
    return (true, { p with
      waiting := p.waiting.filter (fun w => w.1 != number) ++
        [(number, words, before ++ [spot.path])] })
  | .not r, p => do
    let (v, p) ← ask launcher spot r p
    return (!v, p)
  | .both a b, p => do
    let (v, p) ← ask launcher spot a p
    if v && !p.ended then ask launcher spot b p else return (false, p)
  | .either a b, p => do
    let (v, p) ← ask launcher spot a p
    if v || p.ended then return (true, p) else ask launcher spot b p
  | .list a b, p => do
    let (_, p) ← ask launcher spot a p
    ask launcher spot b p

/-- Asks of an entry, if it is deep enough. -/
def visit (launcher : Launcher) (m : Manner) (r : Rule) (spot : Spot) (p : Progress) :
    Sh Progress := do
  if p.ended || spot.depth < m.least then return p
  else do
    let (_, p) ← ask launcher spot r p
    return p

/-- The entry that a link leads to, if links are followed. -/
def resolved (m : Manner) (fs : FileSystem) (loc : Location) (e : Entry) : Location × Entry :=
  if !m.follows then (loc, e)
  else
    match fs.status true (FileSystem.pathOf loc) with
    | .ok found => found
    | .error _ => (loc, e)

/-- Goes through an entry and everything below it, at most `levels` deep. -/
def walk (launcher : Launcher) (m : Manner) (r : Rule) : Nat → Spot → Progress → Sh Progress
  | 0, _, p => return p
  | levels + 1, spot, p => do
    let fs := (← get).files
    let first ← if m.deep then pure p else visit launcher m r spot { p with pruned := false }
    let opens := spot.entry.isFolder && !(first.pruned && !m.deep) && !first.ended &&
      m.most.all fun n => spot.depth < n
    let mut now := first
    if opens then
      for (name, entry) in fs.children spot.location do
        let (loc, entry) := resolved m fs (spot.location ++ [name]) entry
        let path := if spot.path.endsWith "/" then spot.path ++ name else spot.path ++ "/" ++ name
        now ← walk launcher m r levels
          { path := path, start := spot.start, location := loc, entry := entry,
            depth := spot.depth + 1 } now
    if m.deep then visit launcher m r spot now else return { now with pruned := false }

end Find

/-- Searches for entries. -/
def find (launcher : Launcher) : Program := fun args => do
  let (flags, args) := (args.takeWhile fun a => ["-L", "-H", "-P", "--"].contains a,
    args.dropWhile fun a => ["-L", "-H", "-P", "--"].contains a)
  let isPath := fun (a : String) => !(a.startsWith "-" || a = "(" || a = "!" || a = ")" || a = ",")
  let paths := args.takeWhile isPath
  let manner : Find.Manner :=
    { least := 0, most := none, deep := false, follows := flags.contains "-L" }
  Sh.finish 0
  match Find.read manner (args.drop paths.length) with
  | .error text => fail 1 ("find: " ++ text)
  | .ok (rule, m) => do
    let mut p : Find.Progress := {}
    let mut missing := false
    for path in if paths.isEmpty then ["."] else paths do
      if !p.ended then
        let fs := (← get).files
        match fs.status (m.follows || flags.contains "-H") (← Sh.locate path) with
        | .ok (loc, entry) =>
          p ← Find.walk launcher m rule (fs.entries.length + 2)
            { path := path, start := path, location := loc, entry := entry, depth := 0 } p
        | .error e => do
          missing := true
          Sh.complain ("find: " ++ Names.quoted path ++ ": " ++ e.reason)
    let mut failed := missing || p.failed
    for (_, words, targets) in p.waiting do
      if !(← Find.launch launcher (words ++ targets)) then failed := true
    Sh.finish (if failed then 1 else 0)

end Arbor.Shell.Program
