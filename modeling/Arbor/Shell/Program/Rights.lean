import Arbor.Shell.Program.Options

/-! # Rights of files

The rights of an entry are nine bits: reading, writing and running, for the owner, the group and
others. A change of rights is a number, or clauses that add, take away or set rights. -/

namespace Arbor.Shell.Program

namespace Rights

/-- The three rights as letters. -/
def letters (bits : Nat) : String :=
  (if bits / 4 % 2 = 1 then "r" else "-") ++ (if bits / 2 % 2 = 1 then "w" else "-") ++
    (if bits % 2 = 1 then "x" else "-")

/-- All rights as letters. -/
def text (mode : Nat) : String := letters (mode / 64) ++ letters (mode / 8) ++ letters mode

/-- All rights as letters behind the sign of the kind of entry. -/
def full (e : Entry) (mode : Nat) : String :=
  (match e with
    | .file _ => "-"
    | .folder => "d"
    | .link _ => "l") ++ text mode

/-- The octal digits of rights. -/
def digits (mode : Nat) : String := String.ofList (Nat.toDigits 8 mode)

/-- A part of a change: for whom, by which sign, and which rights. -/
structure Clause where
  who : List Char
  sign : Char
  rights : List Char

/-- The clauses of one part of a change. -/
def clauses (who : List Char) : Nat → List Char → Option (List Clause)
  | 0, _ => some []
  | _, [] => some []
  | fuel + 1, sign :: rest =>
    let rights := rest.takeWhile "rwxXst".toList.contains
    if "+-=".toList.contains sign then
      (clauses who fuel (rest.drop rights.length)).map (⟨who, sign, rights⟩ :: ·)
    else none

/-- A part of a change, between commas. -/
def readPart (cs : List Char) : Option (List Clause) :=
  let who := cs.takeWhile "ugoa".toList.contains
  let rest := cs.drop who.length
  if rest.isEmpty then none else clauses who (rest.length + 1) rest

/-- A change of rights. -/
inductive Change where
  | number (mode : Nat)
  | clauses (parts : List Clause)

/-- Reads a change of rights. -/
def Change.read? (s : String) : Option Change :=
  let cs := s.toList
  if cs.isEmpty then none
  else if cs.all fun c => '0' ≤ c && c ≤ '7' then
    let n := cs.foldl (fun n c => 8 * n + (c.toNat - 48)) 0
    if n < 0o10000 then some (.number n) else none
  else ((cs.splitOn ',').mapM readPart).map fun parts => .clauses parts.flatten

/-- The rights without those of a mask. -/
def without (mode mask : Nat) : Nat := Nat.land mode (Nat.xor 0o7777 mask)

/-- What a clause makes of rights. Without anyone named it is for all, but for rights to write. -/
def Clause.apply (isFolder : Bool) (mode : Nat) (c : Clause) : Nat :=
  let all := c.who.isEmpty || c.who.contains 'a'
  let places := [('u', 64), ('g', 8), ('o', 1)].filter fun p => all || c.who.contains p.1
  let runs := c.rights.contains 'x' ||
    (c.rights.contains 'X' && (isFolder || Nat.land mode 0o111 ≠ 0))
  let bits := (if c.rights.contains 'r' then 4 else 0) + (if c.rights.contains 'w' then 2 else 0) +
    (if runs then 1 else 0)
  let mask := places.foldl (fun n p => n + bits * p.2) 0
  let mask := if c.who.isEmpty then without mask 0o022 else mask
  let room := places.foldl (fun n p => n + 7 * p.2) 0
  match c.sign with
  | '+' => Nat.lor mode mask
  | '-' => without mode mask
  | _ => Nat.lor (without mode room) mask

/-- What a change makes of rights. -/
def Change.apply (isFolder : Bool) (mode : Nat) : Change → Nat
  | .number n => n
  | .clauses parts => parts.foldl (Clause.apply isFolder) mode

/-- The argument is a change that takes rights away, and not an option. -/
def takesAway (arg : String) : Bool :=
  match arg.toList with
  | '-' :: c :: _ => "rwxXst".toList.contains c
  | _ => false

/-- The options of `chmod`. -/
def usage : Usage where
  program := "chmod"
  code := 1
  letters := "Rcfv"
  names := [("recursive", 'R'), ("changes", 'c'), ("silent", 'f'), ("quiet", 'f'), ("verbose", 'v')]

/-- Four octal digits of rights. -/
def four (mode : Nat) : String :=
  let ds := digits mode
  String.ofList (List.replicate (4 - ds.length) '0') ++ ds

end Rights

open Rights in
/-- Changes rights. -/
def chmod : Program := fun args =>
  let away := args.filter takesAway
  let others := args.filter fun arg => !takesAway arg
  usage.checked (fun a => do
    let words := away.take 1 ++ a.words
    match words with
    | [] => lacking "chmod" "operand"
    | [change] => usage.refuse ("missing operand after " ++ Names.argument change)
    | text :: names =>
      match Change.read? text with
      | none => usage.refuse ("invalid mode: " ++ Names.argument text)
      | some change =>
        for name in names do
          let s ← get
          match s.files.status true (← Sh.locate name) with
          | .error e =>
            if !a.has 'f' then Sh.complain ("chmod: cannot access " ++ Names.quoted name ++ ": " ++
              e.reason)
            Sh.finish 1
          | .ok (loc, _) =>
            let below := if a.has 'R' then s.files.entries.filter fun e =>
                loc.isPrefixOf e.1 && e.1 != loc else []
            for target in loc :: below.map Prod.fst do
              let before := (← get).mode target
              let isFolder := (s.files.find? target).any Entry.isFolder
              let after := change.apply isFolder before
              modify fun s => s.setMode target after
              if (a.has 'v' || (a.has 'c' && before ≠ after)) && target = loc then
                Sh.say (if before = after then "mode of " ++ Names.quoted name ++ " retained as " ++
                    four after ++ " (" ++ Rights.text after ++ ")\n"
                  else "mode of " ++ Names.quoted name ++ " changed from " ++ four before ++ " (" ++
                    Rights.text before ++ ") to " ++ four after ++ " (" ++
                      Rights.text after ++ ")\n"))
    others

end Arbor.Shell.Program
