import Arbor.Shell.Program.Listing

/-! # Programs that change files

Making, removing, copying and linking. A program takes its files one by one; what fails is told and
the others are still done. -/

namespace Arbor.Shell.Program

/-- Changes the files, or says why not. -/
def change (explain : OsError → String) (f : FileSystem → Except OsError FileSystem) : Sh Unit := do
  match f (← get).files with
  | .ok files => modify fun s => { s with files := files }
  | .error e => fail 1 (explain e)

/-- Does something with each of the names, of which there has to be one. -/
def forNames (program what : String) (names : List String) (act : String → Path → Sh Unit) :
    Sh Unit := do
  if names.isEmpty then lacking program what
  for name in names do
    act name (← Sh.locate name)

/-! ### Removing -/

/-- The options of `rm`. -/
def rmUsage : Usage where
  program := "rm"
  code := 1
  letters := "dfirvIR"
  names := [("dir", 'd'), ("force", 'f'), ("interactive=?", 'i'), ("recursive", 'r'),
    ("verbose", 'v'),
    ("one-file-system", 'o'), ("preserve-root=?", 'p'), ("no-preserve-root", 'n')]

/-- The names of everything below a folder, each behind what it holds, and the folder itself
last. -/
def removalOrder (fs : FileSystem) : Nat → String → Location → List (String × Bool)
  | 0, _, _ => []
  | levels + 1, name, loc =>
    ((fs.children loc).flatMap fun c =>
      let inner := (if name.endsWith "/" then name else name ++ "/") ++ c.1
      if c.2.isFolder then removalOrder fs levels inner (loc ++ [c.1]) else [(inner, false)]) ++
      [(name, true)]

/-- Removes one entry, with everything below it if `deep`. -/
def removeOne (a : Arguments) (deep : Bool) (name : String) (p : Path) : Sh Unit := do
  let fs := (← get).files
  let explain := fun (reason : String) =>
    "rm: cannot remove " ++ Names.quoted name ++ ": " ++ reason
  let last := (((name.toList.reverse.dropWhile (· == '/')).reverse.splitOn '/').getLast?).getD []
  match fs.status false p with
  | .error e => if !(a.has 'f' && (e = .notFound || e = .notFolder)) then fail 1 (explain e.reason)
  | .ok (loc, .folder) =>
    if !deep && !a.has 'd' then fail 1 (explain OsError.isFolder.reason)
    else if last = ['.'] || last = ['.', '.'] then
      fail 1 ("rm: refusing to remove '.' or '..' directory: skipping " ++ Names.quoted name)
    else if !deep && !(fs.children loc).isEmpty then fail 1 (explain "Directory not empty")
    else do
      if a.has 'v' then
        for (inner, isFolder) in removalOrder fs (fs.entries.length + 1) name loc do
          Sh.say ((if isFolder then "removed directory " else "removed ") ++
            Names.quoted inner ++ "\n")
      change (fun e => explain e.reason) fun fs => fs.removeFolder p
  | .ok _ => do
    change (fun e => explain e.reason) fun fs => fs.removeFile p
    if a.has 'v' && (fs.removeFile p).toOption.isSome then
      Sh.say ("removed " ++ Names.quoted name ++ "\n")

/-- Removes files, and folders if asked. -/
def rm : Program := rmUsage.checked fun a => do
  if !(a.words.isEmpty && a.has 'f') then
    forNames "rm" "operand" a.words (removeOne a (a.has 'r' || a.has 'R'))

/-- Removes files one at a time. -/
def unlink : Program := (optionless "unlink").checked fun a => do
  match a.words with
  | [] => lacking "unlink" "operand"
  | _ :: extra :: _ => (optionless "unlink").refuse ("extra operand " ++ Names.argument extra)
  | [name] => do
    let p ← Sh.locate name
    change (fun e => "unlink: cannot unlink " ++ Names.quoted name ++ ": " ++ e.reason)
      fun fs => fs.removeFile p

/-- The options of `rmdir`. -/
def rmdirUsage : Usage where
  program := "rmdir"
  code := 1
  letters := "pv"
  names := [("ignore-fail-on-non-empty", 'I'), ("parents", 'p'), ("verbose", 'v')]

/-- A path and the paths of the folders around it, without the first slash. -/
def withParents (name : String) : List String :=
  let pieces := (name.toList.splitOn '/').map String.ofList
  ((List.range pieces.length).map fun i =>
    String.intercalate "/" (pieces.take (pieces.length - i))).filter fun s => !s.isEmpty

/-- Removes empty folders. -/
def rmdir : Program := rmdirUsage.checked fun a =>
  forNames "rmdir" "operand" a.words fun name _ => do
    let mut going := true
    for target in if a.has 'p' then withParents name else [name] do
      if going then
        let p ← Sh.locate target
        let explain := fun (reason : String) =>
          "rmdir: failed to remove " ++ Names.quoted target ++ ": " ++ reason
        if a.has 'v' then Sh.say ("rmdir: removing directory, " ++ Names.quoted target ++ "\n")
        let fs := (← get).files
        match fs.status false p with
        | .ok (loc, .folder) =>
          if (fs.children loc).isEmpty then
            change (fun e => explain e.reason) fun fs => fs.removeFolder p
          else do
            going := false
            if !a.has 'I' then fail 1 (explain "Directory not empty")
        | .ok _ => do
          going := false
          fail 1 (explain OsError.notFolder.reason)
        | .error e => do
          going := false
          fail 1 (explain e.reason)

/-! ### Making -/

/-- The shortest start of a path that is there and is no folder. -/
def obstacle? (fs : FileSystem) (cwd : Path) (name : String) : Option String :=
  let pieces := name.splitOn "/"
  let starts := (List.range pieces.length).map fun n => String.intercalate "/" (pieces.take (n + 1))
  starts.find? fun s => !s.isEmpty && fs.isFile (cwd.join ⟨s⟩)

/-- The options of `mkdir`. -/
def mkdirUsage : Usage where
  program := "mkdir"
  code := 1
  letters := "pm:vZ"
  names := [("parents", 'p'), ("mode=", 'm'), ("verbose", 'v')]

/-- Makes a folder, and tells of it if asked. -/
def makeFolder (a : Arguments) (explain : OsError → String) (name : String) : Sh Unit := do
  let p ← Sh.locate name
  let before := (← get).files
  change explain fun fs => fs.makeFolder p
  match before.makeFolder p, (← get).files.walk .kept p with
  | .ok _, .ok loc => do
    if a.has 'v' then Sh.say ("mkdir: created directory " ++ Names.quoted name ++ "\n")
    match (a.value? 'm').bind Rights.Change.read? with
    | some change => modify fun s => s.setMode loc (change.apply true 0o777)
    | none => pure ()
  | _, _ => pure ()

/-- Makes folders. -/
def mkdir : Program := mkdirUsage.checked fun a => do
  match (a.value? 'm').map fun m => (m, Rights.Change.read? m) with
  | some (m, none) => fail 1 ("mkdir: invalid mode " ++ Names.argument m)
  | _ =>
    forNames "mkdir" "operand" a.words fun name _ => do
      let explain := fun (n : String) (e : OsError) =>
        "mkdir: cannot create directory " ++ Names.quoted n ++ ": " ++ e.reason
      if !a.has 'p' then makeFolder a (explain name) name
      else
        match obstacle? (← get).files (← get).cwd name with
        | some n => fail 1 (explain n (if n = name then .exists else .notFolder))
        | none => do
          if name.isEmpty then fail 1 (explain name .notFound)
          for folder in (withParents name).reverse do
            if !(← get).files.exists? (← Sh.locate folder) then makeFolder a (explain folder) folder

/-- The options of `touch`. -/
def touchUsage : Usage where
  program := "touch"
  code := 1
  letters := "acd:fhmr:t:"
  names := [("no-create", 'c'), ("date=", 'd'), ("no-dereference", 'h'), ("reference=", 'r'),
    ("time=", 'T')]

/-- Makes empty files where there are none. -/
def touch : Program := touchUsage.checked fun a =>
  forNames "touch" "file operand" a.words fun name p => do
    let fs := (← get).files
    match fs.status true p with
    | .ok _ => pure ()
    | .error .notFolder =>
      fail 1 ("touch: cannot touch " ++ Names.quoted name ++ ": " ++ OsError.notFolder.reason)
    | .error _ =>
      if !a.has 'c' then
        change (fun e => "touch: cannot touch " ++ Names.quoted name ++ ": " ++
          (if e = .isFolder then OsError.notFound else e).reason) fun fs => fs.writeText p ""

/-- The options of `truncate`. -/
def truncateUsage : Usage where
  program := "truncate"
  code := 1
  letters := "cor:s:"
  names := [("no-create", 'c'), ("io-blocks", 'o'), ("reference=", 'r'), ("size=", 's')]

/-- Makes files as long as asked, with zeros at their ends. -/
def truncate : Program := truncateUsage.checked fun a => do
  match a.value? 's' with
  | none => truncateUsage.refuse "you must specify either '--size' or '--reference'"
  | some text =>
    let (sign, digits) := match text.toList with
      | '+' :: ds => (some '+', ds)
      | '-' :: ds => (some '-', ds)
      | ds => (none, ds)
    match count? (String.ofList digits) with
    | none => fail 1 ("truncate: Invalid number: " ++ Names.argument text)
    | some n =>
      forNames "truncate" "file operand" a.words fun name p => do
        let old := (((← get).files.read p).toOption.map ByteArray.toList).getD []
        let size := match sign with
          | some '+' => old.length + n
          | some _ => old.length - n
          | none => n
        let bytes := old.take size ++ List.replicate (size - old.length) 0
        if !(a.has 'c' && !(← get).files.exists? p) then
          change (fun e => "truncate: cannot open " ++ Names.quoted name ++ " for writing: " ++
            e.reason)
            fun fs => fs.write p ⟨bytes.toArray⟩

/-! ### Copying -/

/-- The entry at a location and everything below it, also at another location. -/
def graft (fs : FileSystem) (source target : Location) : FileSystem :=
  let copies := fs.entries.filterMap fun e =>
    if source.isPrefixOf e.1 then some (target ++ e.1.drop source.length, e.2) else none
  copies.foldl (fun fs e => fs.insert e.1 e.2) fs

/-- The rights at a location and below it, also at another location. -/
def graftModes (modes : List (Location × Nat)) (source target : Location) : List (Location × Nat) :=
  (modes.filterMap fun m =>
    if source.isPrefixOf m.1 then some (target ++ m.1.drop source.length, m.2) else none) ++
    modes.filter fun m => !target.isPrefixOf m.1

/-- The name of a file when it comes into a target: inside of it if that is a folder. -/
def targetName (fs : FileSystem) (cwd : Path) (target name : String) : String :=
  if fs.isFolder (cwd.join ⟨target⟩) then
    (if target.endsWith "/" then target else target ++ "/") ++ (Path.mk name).fileName?.getD name
  else target

/-- How files are copied. -/
structure Copying where
  program : String
  /-- The old ones are removed. -/
  moves : Bool
  /-- Folders are copied with all that they hold. -/
  deep : Bool
  /-- Files that are there are left. -/
  spares : Bool
  told : Bool

/-- Tells of all copies of what is at a location. -/
def tellCopies (fs : FileSystem) : Nat → String → String → Location → Sh Unit
  | 0, _, _, _ => pure ()
  | levels + 1, name, target, loc => do
    Sh.say (Names.quoted name ++ " -> " ++ Names.quoted target ++ "\n")
    for (inner, _) in fs.children loc do
      tellCopies fs levels (name ++ "/" ++ inner) (target ++ "/" ++ inner) (loc ++ [inner])

/-- Copies one file or folder, and removes it at its old place if asked. -/
def copyOne (c : Copying) (name target : String) : Sh Unit := do
  let s ← get
  let q ← Sh.locate target
  let shown := Names.quoted name
  let aim := Names.quoted target
  match s.files.status (!c.moves && !c.deep) (← Sh.locate name), s.files.walk .followed q with
  | .error e, _ => fail 1 (c.program ++ ": cannot stat " ++ shown ++ ": " ++ e.reason)
  | .ok (source, entry), there =>
    let obstructed := fun (e : OsError) => fail 1 (c.program ++
      (if c.moves then ": cannot move " ++ shown ++ " to " ++ aim
        else if entry.isFolder then ": cannot create directory " ++ aim
        else ": cannot create regular file " ++ aim) ++ ": " ++ e.reason)
    let place := fun (loc : Location) => do
      modify fun s =>
        let files := graft s.files source loc
        { s with
          files := if c.moves then files.erase source else files
          modes := graftModes s.modes source loc }
      if c.told then
        if c.moves then Sh.say ("renamed " ++ shown ++ " -> " ++ aim ++ "\n")
        else tellCopies s.files (s.files.entries.length + 1) name target source
    if entry.isFolder && !c.moves && !c.deep then
      fail 1 (c.program ++ ": -r not specified; omitting directory " ++ shown)
    else
      match there with
      | .error e => obstructed e
      | .ok loc =>
        if entry.isFolder && source.isPrefixOf loc then
          fail 1 (c.program ++ (if c.moves
            then ": cannot move " ++ shown ++ " to a subdirectory of itself, " ++ aim
            else ": cannot copy a directory, " ++ shown ++ ", into itself, " ++ aim))
        else if source = loc then
          fail 1 (c.program ++ ": " ++ shown ++ " and " ++ aim ++ " are the same file")
        else
          match entry.isFolder, s.files.find? loc with
          | true, some (.file _) =>
            fail 1 (c.program ++ ": cannot overwrite non-directory " ++ aim ++ " with directory " ++
              shown)
          | false, some .folder =>
            fail 1 (c.program ++ ": cannot overwrite directory " ++ aim ++ " with non-directory" ++
              if c.moves then " " ++ shown else "")
          | true, some .folder =>
            if c.moves && !(s.files.children loc).isEmpty then
              fail 1 ("mv: cannot overwrite " ++ aim ++ ": Directory not empty")
            else place loc
          | false, some _ =>
            if c.spares then pure () else place loc
          | isFolder, _ =>
            if !isFolder && q.asksFolder then
              (if c.moves then obstructed .notFolder
                else fail 1 (c.program ++ ": cannot create regular file " ++ aim ++
                  ": Not a directory"))
            else place loc

/-- The options of `cp` and `mv`. -/
def copyUsage (program letters : String) : Usage where
  program := program
  code := 1
  letters := letters
  names := [("archive", 'a'), ("backup=?", 'b'), ("force", 'f'), ("interactive", 'i'),
    ("link", 'l'),
    ("dereference", 'L'), ("no-clobber", 'n'), ("no-dereference", 'P'), ("preserve=?", 'p'),
    ("recursive", 'R'), ("symbolic-link", 's'), ("target-directory=", 't'),
    ("no-target-directory", 'T'), ("update=?", 'u'), ("verbose", 'v')]

/-- Copies files, or moves them. -/
def copy (program letters : String) (moves : Bool) : Program :=
  let usage := copyUsage program letters
  usage.checked fun a => do
    let s ← get
    let c : Copying :=
      { program := program, moves := moves, deep := a.has 'r' || a.has 'R' || a.has 'a'
        spares := a.has 'n', told := a.has 'v' }
    let isFolder := fun (name : String) => s.files.isFolder (s.cwd.join ⟨name⟩)
    let into := fun (names : List String) (target : String) => do
      if isFolder target then
        for name in names do
          copyOne c name (targetName s.files s.cwd target name)
      else
        let reason := if s.files.exists? (s.cwd.join ⟨target⟩) then OsError.notFolder else .notFound
        fail 1 (program ++ ": target " ++ Names.quoted target ++ ": " ++ reason.reason)
    if a.has 'n' && !moves then
      Sh.complain ("cp: warning: behavior of -n is non-portable and may change in future; " ++
        "use --update=none instead")
    match a.value? 't', a.words with
    | _, [] => lacking program "file operand"
    | some target, names => into names target
    | none, [name] => usage.refuse ("missing destination file operand after " ++ Names.quoted name)
    | none, [name, target] =>
      copyOne c name (if a.has 'T' then target else targetName s.files s.cwd target name)
    | none, words => into words.dropLast (words.getLast?.getD "")

/-- Copies files. -/
def cp : Program := copy "cp" "abdfHilLnprst:uvxPRS:TZ" false

/-- Moves files. -/
def mv : Program := copy "mv" "bfint:uvS:TZ" true

/-! ### Linking -/

/-- The options of `ln`. -/
def lnUsage : Usage where
  program := "ln"
  code := 1
  letters := "bdfinrst:vFLPS:T"
  names := [("force", 'f'), ("interactive", 'i'), ("no-dereference", 'n'), ("relative", 'r'),
    ("symbolic", 's'), ("target-directory=", 't'), ("no-target-directory", 'T'), ("verbose", 'v')]

/-- Makes one link. -/
def linkOne (a : Arguments) (name target : String) : Sh Unit := do
  let p ← Sh.locate target
  let s ← get
  let shown := Names.quoted target
  let tell : Sh Unit :=
    if a.has 'v' then Sh.say (shown ++ (if a.has 's' then " -> " else " => ") ++
      Names.quoted name ++ "\n")
    else pure ()
  if a.has 's' then do
    if a.has 'f' then modify fun s => { s with files := s.files.removeAny p }
    change (fun e => "ln: failed to create symbolic link " ++ shown ++ ": " ++ e.reason)
      fun fs => fs.make p (.link name)
    if (← get).status = 0 then tell
  else
    match s.files.status true (← Sh.locate name) with
    | .error e => fail 1 ("ln: failed to access " ++ Names.quoted name ++ ": " ++ e.reason)
    | .ok (_, .folder) =>
      fail 1 ("ln: " ++ Names.shown name ++ ": hard link not allowed for directory")
    | .ok (_, entry) => do
      if a.has 'f' then modify fun s => { s with files := s.files.removeAny p }
      change (fun e => "ln: failed to create hard link " ++ shown ++
        (if e = .exists then "" else " => " ++ Names.quoted name) ++ ": " ++ e.reason)
        fun fs => fs.make p entry
      if (← get).status = 0 then tell

/-- Makes links to files: by name, or as a second place of what is in them. -/
def ln : Program := lnUsage.checked fun a => do
  let s ← get
  let inside := fun (target name : String) =>
    if a.has 'T' || (a.has 'n' && (s.files.status false (s.cwd.join ⟨target⟩)).toOption.any
      fun e => !e.2.isFolder) then target
    else targetName s.files s.cwd target name
  match a.value? 't', a.words with
  | _, [] => lacking "ln" "file operand"
  | some target, names =>
    for name in names do
      linkOne a name (inside target name)
  | none, [name] => linkOne a name ((Path.mk name).fileName?.getD name)
  | none, [name, target] => linkOne a name (inside target name)
  | none, words => do
    let target := words.getLast?.getD ""
    if s.files.isFolder (s.cwd.join ⟨target⟩) then
      for name in words.dropLast do
        linkOne a name (inside target name)
    else fail 1 ("ln: target " ++ Names.quoted target ++ ": " ++
      (if s.files.exists? (s.cwd.join ⟨target⟩) then OsError.notFolder else .notFound).reason)

/-! ### Files for a short time -/

/-- The options of `mktemp`. -/
def mktempUsage : Usage where
  program := "mktemp"
  code := 1
  letters := "dqup:t"
  names := [("directory", 'd'), ("quiet", 'q'), ("dry-run", 'u'), ("tmpdir=?", 'p'), ("suffix=", 'S')]

/-- The name of a template for a number: its digits stand for the last letters `X` of at least three in
a row. -/
def filledTemplate? (template : List Char) (n : Nat) : Option (List Char) :=
  let behind := (template.reverse.takeWhile (· != 'X')).reverse
  let front := template.take (template.length - behind.length)
  let places := (front.reverse.takeWhile (· == 'X')).length
  if places < 3 then none
  else
    let digits := (Nat.toDigits 10 n).take places
    some (front.take (front.length - places) ++ List.replicate (places - digits.length) 'q' ++
      digits ++ behind)

/-- Makes a file or a folder with a name that is not in use, and writes the name. -/
def mktemp : Program := mktempUsage.checked fun a => do
  let template := (a.words.headD "tmp.XXXXXXXXXX") ++ (a.value? 'S').getD ""
  let s ← get
  let inFolder := a.words.isEmpty || a.has 't' || a.has 'p' || (a.value? 'p').isSome
  let full := if inFolder then (a.value? 'p').getD "/tmp" ++ "/" ++ template else template
  if 1 < a.words.length then mktempUsage.refuse "too many templates"
  else
    match filledTemplate? full.toList s.nextProcess with
    | none => fail 1 ("mktemp: too few X's in template " ++ Names.quoted template)
    | some name => do
      let name := String.ofList name
      let path ← Sh.locate name
      modify fun s => { s with nextProcess := s.nextProcess + 1 }
      let made := if a.has 'u' then .ok s.files
        else if a.has 'd' then s.files.makeFolder path
        else s.files.writeText path ""
      match made with
      | .ok files => do
        modify fun s => { s with files := files }
        Sh.say (name ++ "\n")
      | .error e =>
        fail 1 ("mktemp: failed to create " ++ (if a.has 'd' then "directory" else "file") ++
          " via template " ++ Names.quoted full ++ ": " ++ e.reason)

end Arbor.Shell.Program
