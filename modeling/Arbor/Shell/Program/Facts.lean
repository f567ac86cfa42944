import Arbor.Shell.Program.Files

/-! # Programs that tell facts

About files, their names and places, and about the user and the machine. -/

namespace Arbor.Shell.Program

/-! ### Places -/

/-- The options of `readlink`. -/
def readlinkUsage : Usage where
  program := "readlink"
  code := 1
  letters := "efmnqsvz"
  names := [("canonicalize", 'f'), ("canonicalize-existing", 'e'), ("canonicalize-missing", 'm'),
    ("no-newline", 'n'), ("quiet", 'q'), ("silent", 's'), ("verbose", 'v'), ("zero", 'z')]

/-- The path without links; with `all` the last step has to be there, with `none` no step has to. -/
def realPath (s : State) (all free : Bool) (p : Path) : Except OsError String :=
  if all then (s.files.canonical p).map Path.text
  else
    match s.files.walk .followed p with
    | .ok loc => .ok (FileSystem.pathOf loc).text
    | .error e => if free then .ok p.normalize.text else .error e

/-- Writes where links lead. -/
def readlink : Program := readlinkUsage.checked fun a => do
  let ending := if a.has 'z' then String.singleton (Char.ofNat 0)
    else if a.has 'n' && a.words.length = 1 then "" else "\n"
  forNames "readlink" "operand" a.words fun name p => do
    let s ← get
    let result : Except OsError String :=
      if a.has 'f' || a.has 'e' || a.has 'm' then realPath s (a.has 'e') (a.has 'm') p
      else
        match s.files.status false p with
        | .ok (_, .link target) => .ok target
        | .ok _ => .error .badName
        | .error e => .error e
    match result with
    | .ok text => Sh.say (text ++ ending)
    | .error e => do
      if a.has 'v' then
        Sh.complain ("readlink: " ++ Names.shown name ++ ": " ++
          if e = .badName then "Invalid argument" else e.reason)
      Sh.finish 1

/-- The options of `realpath`. -/
def realpathUsage : Usage where
  program := "realpath"
  code := 1
  letters := "eLmPqsz"
  names := [("canonicalize-existing", 'e'), ("canonicalize-missing", 'm'), ("logical", 'L'),
    ("physical", 'P'), ("quiet", 'q'), ("strip", 's'), ("no-symlinks", 's'), ("zero", 'z')]

/-- Writes paths without links. -/
def realpath : Program := realpathUsage.checked fun a =>
  forNames "realpath" "operand" a.words fun name p => do
    let s ← get
    match if a.has 's' then .ok p.normalize.text else realPath s (a.has 'e') (a.has 'm') p with
    | .ok text => Sh.say (text ++ if a.has 'z' then String.singleton (Char.ofNat 0) else "\n")
    | .error e => do
      if !a.has 'q' then Sh.complain ("realpath: " ++ Names.shown name ++ ": " ++ e.reason)
      Sh.finish 1

/-! ### Entries -/

/-- What an entry is called. -/
def kindOf : Entry → String
  | .file content => if content.size = 0 then "regular empty file" else "regular file"
  | .folder => "directory"
  | .link _ => "symbolic link"

/-- A format with its directives filled in for an entry. -/
def describeBy (s : State) (e : Listed) (escapes : Bool) : List Char → String
  | '%' :: c :: rest =>
    let text := match c with
      | 's' => Nat.repr (sizeOf e.entry)
      | 'n' => e.name
      | 'N' => Names.quoted e.name ++ match e.entry with
        | .link target => " -> " ++ Names.quoted target
        | _ => ""
      | 'F' => kindOf e.entry
      | 'a' => Rights.digits (s.mode e.location)
      | 'A' => Rights.full e.entry (s.mode e.location)
      | 'f' => String.ofList (Nat.toDigits 16 ((match e.entry with
        | .file _ => 0x8000
        | .folder => 0x4000
        | .link _ => 0xa000) + s.mode e.location))
      | 'U' | 'G' => "root"
      | 'u' | 'g' => "0"
      | 'h' => Nat.repr (linksOf s.files e)
      | 'b' => Nat.repr (2 * blocksOf e.entry)
      | 'B' => "512"
      | '%' => "%"
      | c => "?" ++ (if c == '?' then "" else "")
    text ++ describeBy s e escapes rest
  | '\\' :: 'n' :: rest => (if escapes then "\n" else "\\n") ++ describeBy s e escapes rest
  | '\\' :: 't' :: rest => (if escapes then "\t" else "\\t") ++ describeBy s e escapes rest
  | c :: rest => c.toString ++ describeBy s e escapes rest
  | [] => ""

/-- The options of `stat`. -/
def statUsage : Usage where
  program := "stat"
  code := 1
  letters := "c:fLt"
  names := [("dereference", 'L'), ("file-system", 'f'), ("format=", 'c'), ("printf=", 'P'),
    ("terse", 't')]

/-- Writes facts about files. -/
def stat : Program := statUsage.checked fun a =>
  forNames "stat" "operand" a.words fun name p => do
    let s ← get
    match s.files.status (a.has 'L') p with
    | .ok (loc, entry) =>
      let e : Listed := ⟨name, entry, loc⟩
      match a.lastOf "cP" with
      | some ('P', format) => Sh.say (describeBy s e true format.toList)
      | some (_, format) => Sh.say (describeBy s e false format.toList ++ "\n")
      | none => Sh.say (describeBy s e false ("  File: %n\n  Size: %s\t%F".toList) ++ "\n")
    | .error e => fail 1 ("stat: cannot statx " ++ Names.quoted name ++ ": " ++ e.reason)

/-- The options of `du`. -/
def duUsage : Usage where
  program := "du"
  code := 1
  letters := "0abd:chHklmst:xB:DLPSX:"
  names := [("all", 'a'), ("apparent-size", 'A'), ("bytes", 'b'), ("total", 'c'),
    ("max-depth=", 'd'),
    ("human-readable", 'h'), ("summarize", 's')]

/-- The folders below one with their titles, each behind what it holds. -/
def duRows (a : Arguments) (fs : FileSystem) : Nat → Nat → String → Location → List (Nat × String)
  | 0, _, _, _ => []
  | levels + 1, depth, title, loc =>
    let size := fun (e : Entry) => if a.has 'b' then sizeOf e else blocksOf e
    let below := fs.entries.filter fun e => loc.isPrefixOf e.1 && e.1 != loc
    let own := (fs.find? loc).map size |>.getD 0
    let total := below.foldl (fun n e => n + size e.2) own
    let limit := if a.has 's' then some 0 else (a.value? 'd').bind count?
    let inner := if limit.any (· ≤ depth) then [] else (fs.children loc).flatMap fun c =>
      if c.2.isFolder then duRows a fs levels (depth + 1) (title ++ "/" ++ c.1) (loc ++ [c.1])
      else if a.has 'a' then [(size c.2, title ++ "/" ++ c.1)] else []
    inner ++ [(total, title)]

/-- Writes how much folders hold. -/
def du : Program := duUsage.checked fun a => do
  let mut sum := 0
  for name in if a.words.isEmpty then ["."] else a.words do
    let fs := (← get).files
    match fs.status true (← Sh.locate name) with
    | .error e => fail 1 ("du: cannot access " ++ Names.quoted name ++ ": " ++ e.reason)
    | .ok (loc, _) =>
      let rows := duRows a fs (fs.entries.length + 1) 0 name loc
      sum := sum + (rows.getLast?.map Prod.fst).getD 0
      for (n, title) in rows do
        Sh.say (Nat.repr n ++ (if a.has 'h' && n ≠ 0 then "K" else "") ++ "\t" ++ title ++ "\n")
  if a.has 'c' then Sh.say (Nat.repr sum ++ (if a.has 'h' && sum ≠ 0 then "K" else "") ++
    "\ttotal\n")

/-! ### Names -/

/-- The options of `basename`. -/
def basenameUsage : Usage where
  program := "basename"
  code := 1
  letters := "as:z"
  names := [("multiple", 'a'), ("suffix=", 's'), ("zero", 'z')]
  ordered := true

/-- The last component of a path, without an ending if one is given. -/
def lastName (ending name : String) : String :=
  let bare := (name.toList.reverse.dropWhile (· == '/')).reverse
  let base := if bare.isEmpty then (if name.isEmpty then "" else "/")
    else String.ofList ((bare.splitOn '/').getLast?.getD [])
  if base.endsWith ending && base != ending then
    String.ofList (base.toList.take (base.length - ending.length))
  else base

/-- The last components of paths. -/
def basename : Program := basenameUsage.checked fun a => do
  let stop := if a.has 'z' then String.singleton (Char.ofNat 0) else "\n"
  let several := a.has 'a' || (a.value? 's').isSome
  match a.words with
  | [] => lacking "basename" "operand"
  | name :: more =>
    if several then
      Sh.say (String.join (a.words.map fun n => lastName ((a.value? 's').getD "") n ++ stop))
    else
      match more[1]? with
      | some extra => basenameUsage.refuse ("extra operand " ++ Names.argument extra)
      | none => Sh.say (lastName (more.headD "") name ++ stop)

/-- A path without its last component. -/
def parentName (name : String) : String :=
  let bare := (name.toList.reverse.dropWhile (· == '/'))
  let front := ((bare.dropWhile (· != '/')).dropWhile (· == '/')).reverse
  if !front.isEmpty then String.ofList front
  else if name.startsWith "/" then "/" else "."

/-- The paths without their last components. -/
def dirname : Program :=
  let usage : Usage :=
    { program := "dirname", code := 1, letters := "z", names := [("zero", 'z')], ordered := true }
  usage.checked fun a => do
    if a.words.isEmpty then lacking "dirname" "operand"
    Sh.say (String.join (a.words.map fun n =>
      parentName n ++ if a.has 'z' then String.singleton (Char.ofNat 0) else "\n"))

/-! ### User and machine -/

/-- The options of `id`. -/
def idUsage : Usage where
  program := "id"
  code := 1
  letters := "agGnruzZ"
  names := [("group", 'g'), ("groups", 'G'), ("name", 'n'), ("real", 'r'), ("user", 'u'),
    ("zero", 'z')]

/-- Tells who the user is. -/
def userId : Program := idUsage.checked fun a => do
  match a.words.find? fun w => w != "root" && w != "0" with
  | some name => fail 1 ("id: " ++ Names.argument name ++ ": no such user")
  | none =>
    Sh.say (if a.has 'u' || a.has 'g' || a.has 'G' then (if a.has 'n' then "root\n" else "0\n")
      else "uid=0(root) gid=0(root) groups=0(root)\n")

/-- A program without options or words that writes a line. -/
def teller (program line : String) : Program := (optionless program).checked fun a => do
  match a.words with
  | [] => Sh.say (line ++ "\n")
  | extra :: _ => (optionless program).refuse ("extra operand " ++ Names.argument extra)

/-- The options of `tty`. -/
def ttyUsage : Usage where
  program := "tty"
  code := 2
  letters := "s"
  names := [("silent", 's'), ("quiet", 's')]

/-- Tells that the standard input is no terminal. -/
def tty : Program := ttyUsage.checked fun a => do
  match a.words with
  | [] => do
    if !a.has 's' then Sh.say "not a tty\n"
    Sh.finish 1
  | extra :: _ => ttyUsage.refuse ("extra operand " ++ Names.argument extra)

/-- The options of `uname`. -/
def unameUsage : Usage where
  program := "uname"
  code := 1
  letters := "asnrvmpio"
  names := [("all", 'a'), ("kernel-name", 's'), ("nodename", 'n'), ("kernel-release", 'r'),
    ("kernel-version", 'v'), ("machine", 'm'), ("operating-system", 'o')]

/-- Tells what the machine is. -/
def uname : Program := unameUsage.checked fun a => do
  let parts := [('s', "Linux"), ('m', "x86_64"), ('o', "GNU/Linux")].filter fun p =>
    a.has 'a' || a.has p.1 || (a.letters.isEmpty && p.1 == 's')
  match a.words with
  | [] => Sh.say (String.intercalate " " (parts.map Prod.snd) ++ "\n")
  | extra :: _ => unameUsage.refuse ("extra operand " ++ Names.argument extra)

/-! ### Numbers -/

/-- The prime factors of a number, from a divisor on. -/
def factors : Nat → Nat → Nat → List Nat
  | 0, _, _ => []
  | fuel + 1, divisor, n =>
    if n ≤ 1 then []
    else if n < divisor * divisor then [n]
    else if n % divisor = 0 then divisor :: factors fuel divisor (n / divisor)
    else factors fuel (divisor + 1) n

/-- Writes the prime factors of numbers. -/
def factor : Program := (optionless "factor").checked fun a => do
  let words ← if a.words.isEmpty then
      do pure (((octets (← whole (← Sh.takeInput))).splitOnP fun c => c == ' ' || c == '\n').map
        String.ofList |>.filter fun w => !w.isEmpty)
    else pure a.words
  for word in words do
    match count? word with
    | some n => Sh.say (Nat.repr n ++ ":" ++
        String.join ((factors (n + 64) 2 n).map fun p => " " ++ Nat.repr p) ++ "\n")
    | none => fail 1 ("factor: " ++ Names.argument word ++ " is not a valid positive integer")

end Arbor.Shell.Program
