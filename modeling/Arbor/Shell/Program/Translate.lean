import Arbor.Shell.Format
import Arbor.Shell.Program.Options

/-! # Replacing, deleting and squeezing characters

A set of characters is written as single characters, escapes, ranges, named classes and repetitions.
Each character stands for a byte. -/

namespace Arbor.Shell.Program

namespace Translate

/-- A piece of a set as it is written. -/
inductive Piece where
  | bytes (bytes : List UInt8)
  /-- A named class. -/
  | named (name : String) (bytes : List UInt8)
  /-- One byte as often as needed. -/
  | fill (b : UInt8)
  deriving DecidableEq, Repr

/-- The bytes from one character to another. -/
def run (a b : Nat) : List UInt8 := (List.range (b + 1 - a)).map fun i => UInt8.ofNat (a + i)

/-- The bytes from one character to another. -/
def letters (a b : Char) : List UInt8 := run a.toNat b.toNat

/-- The named classes. -/
def classes : List (String × List UInt8) :=
  [("upper", letters 'A' 'Z'), ("lower", letters 'a' 'z'),
    ("alpha", letters 'A' 'Z' ++ letters 'a' 'z'), ("digit", letters '0' '9'),
    ("alnum", letters '0' '9' ++ letters 'A' 'Z' ++ letters 'a' 'z'),
    ("space", run 9 13 ++ [32]), ("blank", [9, 32]),
    ("punct", letters '!' '/' ++ letters ':' '@' ++ letters '[' '\x60' ++ letters '\x7b' '~'),
    ("print", letters ' ' '~'), ("graph", letters '!' '~'), ("cntrl", run 0 31 ++ [127]),
    ("xdigit", letters '0' '9' ++ letters 'A' 'F' ++ letters 'a' 'f')]

/-- A byte of a set, and whether it was written with a backslash. -/
abbrev Sign := UInt8 × Bool

/-- The byte that an escape stands for, behind its backslash. -/
def escape (cs : List Char) : Sign × List Char :=
  match cs with
  | [] => ((92, true), [])
  | c :: rest =>
    if Format.isOctal c then
      let (b, rest) := Format.readOctal 3 (c :: rest)
      ((b, true), rest)
    else
      match if c == 'e' then none else Format.shortEscape? c with
      | some b => ((b, true), rest)
      | none => ((UInt8.ofNat c.toNat, true), rest)

/-- The bytes of a set, with escapes read. -/
def signs : Nat → List Char → List Sign
  | 0, _ => []
  | _ + 1, [] => []
  | fuel + 1, '\\' :: rest =>
    let (sign, rest) := escape rest
    sign :: signs fuel rest
  | fuel + 1, c :: rest => (UInt8.ofNat c.toNat, false) :: signs fuel rest

/-- A character without a backslash. -/
def bare (c : Char) : Sign := (UInt8.ofNat c.toNat, false)

/-- The text of signs. -/
def textOf (ss : List Sign) : String := String.ofList (ss.map fun s => Char.ofNat s.1.toNat)

/-- What stands between a colon or an equals sign and the same with a bracket, and what is
behind. -/
def enclosed? (mark : Char) : List Sign → Option (List Sign × List Sign)
  | a :: b :: rest =>
    if a = bare mark && b = bare ']' then some ([], rest)
    else (enclosed? mark (b :: rest)).map fun r => (a :: r.1, r.2)
  | _ => none

/-- The number of a repetition: octal if it starts with a zero. -/
def repeats? (digits : List Sign) : Option Nat :=
  let cs := (textOf digits).toList
  if !cs.all Char.isDigit then none
  else if cs.head? = some '0' then
    if cs.all Format.isOctal then some (cs.foldl (fun n c => 8 * n + (c.toNat - 48)) 0) else none
  else some (cs.foldl (fun n c => 10 * n + (c.toNat - 48)) 0)

/-- A repetition behind its bracket, and what is behind it. -/
def repetition? : List Sign → Option (Piece × List Sign)
  | c :: star :: rest =>
    let digits := rest.takeWhile fun s => s != bare ']'
    if star = bare '*' && digits.length < rest.length then
      (repeats? digits).map fun n =>
        (if n = 0 then .fill c.1 else .bytes (List.replicate n c.1), rest.drop (digits.length + 1))
    else none
  | _ => none

/-- The bounds of a range as they are shown. -/
def bound (b : UInt8) : String :=
  if Names.isShown (Char.ofNat b.toNat) then String.singleton (Char.ofNat b.toNat)
  else String.ofList (Names.escaped (Char.ofNat b.toNat))

/-- The pieces of a set. -/
def pieces : Nat → List Sign → Except String (List Piece)
  | 0, _ => .ok []
  | _ + 1, [] => .ok []
  | fuel + 1, s :: rest => do
    let single : Except String (List Piece) :=
      match rest with
      | dash :: high :: more =>
        if dash = bare '-' then
          if high.1 < s.1 then .error ("range-endpoints of '" ++ bound s.1 ++ "-" ++ bound high.1 ++
            "' are in reverse collating sequence order")
          else do return .bytes (run s.1.toNat high.1.toNat) :: (← pieces fuel more)
        else do return .bytes [s.1] :: (← pieces fuel rest)
      | _ => do return .bytes [s.1] :: (← pieces fuel rest)
    if s != bare '[' then single
    else
      match rest with
      | mark :: inner =>
        if mark = bare ':' then
          match enclosed? ':' inner with
          | none => single
          | some (name, behind) =>
            match classes.lookup (textOf name) with
            | some bytes => return .named (textOf name) bytes :: (← pieces fuel behind)
            | none =>
              if (repetition? rest).isSome then single
              else .error ("invalid character class " ++ Names.argument (textOf name))
        else if mark = bare '=' then
          match enclosed? '=' inner with
          | some ([c], behind) => return .bytes [c.1] :: (← pieces fuel behind)
          | some ([], _) => .error "missing equivalence class character '[==]'"
          | some (text, _) => .error (textOf text ++
              ": equivalence class operand must be a single character")
          | none => single
        else
          match repetition? rest with
          | some (piece, behind) => return piece :: (← pieces fuel behind)
          | none => single
      | [] => single

/-- Reads a set. -/
def read (text : String) : Except String (List Piece) :=
  let cs := octetsOf text
  let ss := signs (cs.length + 1) cs
  pieces (ss.length + 1) ss

/-- The bytes of a set; what fills it up makes it as long as `length`. -/
def bytesOf (length : Nat) (set : List Piece) : List UInt8 :=
  let fixed := (set.map fun p => match p with
    | .bytes bs => bs.length
    | .named _ bs => bs.length
    | .fill _ => 0).foldl (· + ·) 0
  set.flatMap fun p => match p with
    | .bytes bs => bs
    | .named _ bs => bs
    | .fill b => List.replicate (length - fixed) b

/-- The bytes that are not in a set. -/
def complement (set : List UInt8) : List UInt8 := (run 0 255).filter fun b => !set.contains b

/-- The byte that takes the place of another; the last of the second set stands for all behind. Of
several places in the first set the last one counts. -/
def mapped (first second : List UInt8) (b : UInt8) : UInt8 :=
  match (first.zipIdx.filter fun x => x.1 = b).getLast? with
  | none => b
  | some (_, i) => (second[i]?).getD (second.getLast?.getD b)

/-- Bytes with each run of one byte of a set made a single byte. -/
def squeezed (set : List UInt8) : List UInt8 → List UInt8
  | a :: b :: rest =>
    if a = b && set.contains a then squeezed set (b :: rest) else a :: squeezed set (b :: rest)
  | bytes => bytes

/-- The options of `tr`. -/
def usage : Usage where
  program := "tr"
  code := 1
  letters := "cCdst"
  names := [("complement", 'c'), ("delete", 'd'), ("squeeze-repeats", 's'), ("truncate-set1", 't')]
  ordered := true

/-- A table of the bytes that take the places of others. -/
def table (first second : List UInt8) : Array UInt8 :=
  ((run 0 255).map (mapped first second)).toArray

/-- The byte of a table. -/
def look (t : Array UInt8) (b : UInt8) : UInt8 := (t[b.toNat]?).getD b

end Translate

open Translate in
/-- Works on the input with sets that have been read. -/
def translate (a : Arguments) (first : List Piece) (second : Option (List Piece)) : Sh Unit := do
  let negated := a.has 'c' || a.has 'C'
  let given := if negated then complement (bytesOf 0 first) else bytesOf 0 first
  match a.has 'd', second with
  | true, second => do
    let kept := (← whole (← Sh.takeInput)).filter fun b => !given.contains b
    Sh.emit 1 (.ofBytes ((second.map fun s => squeezed (bytesOf 0 s) kept).getD kept))
  | false, none => do Sh.emit 1 (.ofBytes (squeezed given (← whole (← Sh.takeInput))))
  | false, some second => do
    let target := bytesOf given.length second
    let given := if a.has 't' then given.take target.length else given
    let badClass := second.any fun p => match p with
      | .named n _ => n != "upper" && n != "lower"
      | _ => false
    if badClass then
      fail 1 ("tr: when translating, the only character classes that may appear in\n" ++
        "string2 are 'upper' and 'lower'")
    else if target.isEmpty && !a.has 't' then
      fail 1 "tr: when not truncating set1, string2 must be non-empty"
    else do
      let input ← Sh.takeInput
      let t := table given target
      if a.has 's' then Sh.emit 1 (.ofBytes (squeezed target ((← whole input).map (look t))))
      else Sh.emit 1 ⟨input.start.map (look t), input.cycle.map (look t)⟩

/-- Replaces, deletes or squeezes characters. -/
def tr : Program := Translate.usage.checked fun a => do
  let refuse := fun (text why : String) =>
    Translate.usage.refuse (text ++ if why.isEmpty then "" else "\n" ++ why)
  let needed := if a.has 'd' = a.has 's' then 2 else 1
  let allowed := if a.has 'd' && !a.has 's' then 1 else 2
  match a.words with
  | [] => refuse "missing operand" ""
  | first :: more =>
    if a.words.length < needed then
      refuse ("missing operand after " ++ Names.argument first)
        (if a.has 'd' then "Two strings must be given when both deleting and squeezing repeats."
          else "Two strings must be given when translating.")
    else if allowed < a.words.length then
      refuse ("extra operand " ++ Names.argument ((a.words[allowed]?).getD ""))
        (if allowed = 1 && more.length = 1
          then "Only one string may be given when deleting without squeezing repeats." else "")
    else
      match Translate.read first, more.head?.map Translate.read with
      | .error text, _ => fail 1 ("tr: " ++ text)
      | .ok _, some (.error text) => fail 1 ("tr: " ++ text)
      | .ok first, some (.ok second) => translate a first (some second)
      | .ok first, none => translate a first none

end Arbor.Shell.Program
