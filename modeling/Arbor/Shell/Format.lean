import Arbor.Shell.Decimal
import Arbor.Shell.Stream
import Arbor.Text.Hex

/-! # Formatted output

The escapes and conversions of `echo` and `printf`. -/

namespace Arbor.Shell.Format

/-- The bytes of characters. -/
def bytesOf (cs : List Char) : List UInt8 := (String.ofList cs).toUTF8.toList

/-- The byte of a short escape. -/
def shortEscape? : Char → Option UInt8
  | 'a' => some 7
  | 'b' => some 8
  | 'f' => some 12
  | 'n' => some 10
  | 'r' => some 13
  | 't' => some 9
  | 'v' => some 11
  | 'e' => some 27
  | '\\' => some 92
  | _ => none

/-- An octal digit. -/
def isOctal (c : Char) : Bool := '0' ≤ c && c ≤ '7'

/-- The byte of at most `width` octal digits, and the rest. -/
def readOctal (width : Nat) (cs : List Char) : UInt8 × List Char :=
  let digits := (cs.take width).takeWhile isOctal
  let n := digits.foldl (fun n c => 8 * n + (c.toNat - '0'.toNat)) 0
  (UInt8.ofNat n, cs.drop digits.length)

/-- What an escape behind a backslash writes, and the rest; nothing behind `\c`. A backslash that
escapes nothing stands for itself. With `zero` an octal escape starts with a zero of its own. -/
def readEscape (zero : Bool) (cs : List Char) : Option (List UInt8 × List Char) :=
  match cs with
  | [] => some ([92], [])
  | 'c' :: rest => if zero then none else some ([92, 99], rest)
  | c :: rest =>
    match shortEscape? c with
    | some b => some ([b], rest)
    | none =>
      if zero && c == '0' then
        let (b, rest) := readOctal 3 rest
        some ([b], rest)
      else if !zero && isOctal c then
        let (b, rest) := readOctal 3 (c :: rest)
        some ([b], rest)
      else some (92 :: bytesOf [c], rest)

/-- The bytes of a text with its escapes, and whether it is cut short. -/
def unescape : Nat → List Char → List UInt8 × Bool
  | 0, _ => ([], false)
  | _, [] => ([], false)
  | fuel + 1, '\\' :: rest =>
    match readEscape true rest with
    | none => ([], true)
    | some (bytes, rest) =>
      let (more, ended) := unescape fuel rest
      (bytes ++ more, ended)
  | fuel + 1, c :: rest =>
    let (more, ended) := unescape fuel rest
    (bytesOf [c] ++ more, ended)

/-- The bytes of a text with its escapes. -/
def escaped (s : String) : List UInt8 × Bool := unescape (s.length + 1) s.toList

/-! ### Conversions -/

/-- The form of a conversion. -/
structure Spec where
  left : Bool
  plus : Bool
  space : Bool
  zero : Bool
  alternate : Bool
  width : Nat
  precision : Option Nat

/-- The flags at the front of a conversion. -/
def isFlag (c : Char) : Bool := "-+ 0#".toList.contains c

/-- The number that digits write. -/
def number (digits : List Char) : Nat := ((String.ofList digits).toNat?).getD 0

/-- The number at the front, or the one of the next argument for a star; what is left of both. -/
def readMeasure (cs : List Char) (args : List String) : Nat × List Char × List String :=
  match cs with
  | '*' :: rest => (number (args.headD "").toList, rest, args.drop 1)
  | cs => (number (cs.takeWhile Char.isDigit), cs.dropWhile Char.isDigit, args)

/-- The form of a conversion, the rest from its letter on, and the arguments that are left. -/
def readSpec (cs : List Char) (args : List String) : Spec × List Char × List String :=
  let flags := cs.takeWhile isFlag
  let (width, cs, args) := readMeasure (cs.dropWhile isFlag) args
  let (precision, cs, args) := match cs with
    | '.' :: rest =>
      let (n, rest, args) := readMeasure rest args
      (some n, rest, args)
    | cs => (none, cs, args)
  ({ left := flags.contains '-', plus := flags.contains '+', space := flags.contains ' ',
     zero := flags.contains '0', alternate := flags.contains '#', width := width,
     precision := precision }, cs, args)

/-- Fills up to the width with blanks. -/
def pad (spec : Spec) (bytes : List UInt8) : List UInt8 :=
  let fill := List.replicate (spec.width - bytes.length) 32
  if spec.left then bytes ++ fill else fill ++ bytes

/-- The text of a number with its sign or base in front. -/
def padNumber (spec : Spec) (front digits : List Char) : List UInt8 :=
  let digits := List.replicate (spec.precision.getD 0 - digits.length) '0' ++ digits
  let zeros := if spec.zero && !spec.left && spec.precision.isNone then
      spec.width - front.length - digits.length else 0
  pad spec (bytesOf (front ++ List.replicate zeros '0' ++ digits))

/-- Why an argument does not fit its conversion. -/
inductive Misfit where
  | notNumber
  /-- Something is left behind the number. -/
  | partly
  | outOfRange
  deriving DecidableEq, Repr

/-- A number with what is wrong with the text that it was read from. -/
abbrev Reading (α : Type) := α × Option Misfit

/-- The digits of a base at the front, and their value. -/
def readDigits (base : Nat) (cs : List Char) : Nat × List Char :=
  let digits := cs.takeWhile fun c => (Text.hexValue? c).any fun n => n < base
  (digits.foldl (fun n c => base * n + (Text.hexValue? c).getD 0) 0, digits)

/-- The whole number at the front: decimal, octal or hexadecimal; how much of the text it takes. -/
def readWhole (cs : List Char) : Nat × Nat :=
  match cs with
  | '0' :: x :: rest =>
    let (n, digits) := readDigits 16 rest
    if (x == 'x' || x == 'X') && !digits.isEmpty then (n, digits.length + 2)
    else
      let (n, digits) := readDigits 8 (x :: rest)
      (n, digits.length + 1)
  | cs =>
    let (n, digits) := readDigits 10 cs
    (n, digits.length)

/-- The whole number that an argument stands for: a number between bounds, or a quoted character. -/
def integer (low high : Int) (s : String) : Reading Int :=
  match s.toList with
  | '\x27' :: _ => ((((octetsOf s)[1]?).map fun c => (c.toNat : Int)).getD 0, none)
  | '"' :: _ => ((((octetsOf s)[1]?).map fun c => (c.toNat : Int)).getD 0, none)
  | [] => (0, none)
  | cs =>
    let body := cs.dropWhile fun c => c == ' ' || ('\t' ≤ c && c ≤ '\r')
    let (negative, digits) := match body with
      | '-' :: rest => (true, rest)
      | '+' :: rest => (false, rest)
      | rest => (false, rest)
    let (n, taken) := readWhole digits
    let value : Int := if negative then -(n : Int) else n
    let bounded := max low (min high value)
    if taken = 0 then (0, some .notNumber)
    else if taken < digits.length then (bounded, some .partly)
    else (bounded, if bounded = value then none else some .outOfRange)

/-- The greatest signed number of 64 bits. -/
def maxSigned : Int := 0x7FFFFFFFFFFFFFFF

/-- The number as a word of 64 bits. -/
def unsigned (n : Int) : Nat := (n % 0x10000000000000000).toNat

/-- A number of double precision: a decimal, or the word for what is none. -/
abbrev Real := Decimal ⊕ String

/-- The number of double precision that an argument stands for. -/
def real (s : String) : Reading Real :=
  let body := s.toList.dropWhile fun c => c == ' ' || ('\t' ≤ c && c ≤ '\r')
  if s.isEmpty then (.inl .zero, none)
  else
    match Decimal.read? body with
    | some (d, rest) =>
      let value : Real := match Decimal.ofFloat? d.toFloat with
        | some exact => .inl exact
        | none => .inr (if d.value < 0 then "-inf" else "inf")
      (value, if !rest.isEmpty then some .partly
        else if value.isRight then some .outOfRange else none)
    | none =>
      match String.ofList (body.map Char.toLower) with
      | "inf" | "infinity" | "+inf" => (.inr "inf", none)
      | "-inf" | "-infinity" => (.inr "-inf", none)
      | "nan" => (.inr "nan", none)
      | _ => (.inl .zero, some .notNumber)

/-- The sign in front of a number. -/
def signOf (spec : Spec) (negative : Bool) : List Char :=
  if negative then ['-'] else if spec.plus then ['+'] else if spec.space then [' '] else []

/-- The digits of a decimal by the letter of a conversion. -/
def realDigits (spec : Spec) (letter : Char) (d : Decimal) : List Char :=
  let precision := spec.precision.getD 6
  let mark := if letter.isUpper then 'E' else 'e'
  match letter.toLower with
  | 'e' => Decimal.exponentDigits mark precision d
  | 'g' => Decimal.generalDigits mark spec.alternate precision d
  | _ => Decimal.fixedDigits precision d

/-- What a conversion writes for a number of double precision. -/
def writeReal (spec : Spec) (letter : Char) : Real → List UInt8
  | .inl d =>
    padNumber { spec with precision := none } (signOf spec (d.value < 0)) (realDigits spec letter d)
  | .inr word => pad spec (bytesOf word.toList)

/-- What a conversion by its letter writes for an argument, and what is wrong with the argument. -/
def convert? (spec : Spec) (letter : Char) (arg : String) : Option (List UInt8 × Option Misfit) :=
  let (v, signedMisfit) := integer (-maxSigned - 1) maxSigned arg
  let (u, wordMisfit) := integer (-(2 * maxSigned + 1)) (2 * maxSigned + 1) arg
  match letter with
  | 's' =>
    let bytes := arg.toUTF8.toList
    some (pad spec (bytes.take (spec.precision.getD bytes.length)), none)
  | 'c' => some (pad spec (if arg.isEmpty then [0] else arg.toUTF8.toList.take 1), none)
  | 'd' | 'i' => some (padNumber spec (signOf spec (v < 0)) (Nat.toDigits 10 v.natAbs),
      signedMisfit)
  | 'u' => some (padNumber spec [] (Nat.toDigits 10 (unsigned u)), wordMisfit)
  | 'o' =>
    some (padNumber spec (if spec.alternate && u != 0 then ['0'] else [])
      (Nat.toDigits 8 (unsigned u)), wordMisfit)
  | 'x' =>
    let front := if spec.alternate && u != 0 then ['0', 'x'] else []
    some (padNumber spec front (Nat.toDigits 16 (unsigned u)), wordMisfit)
  | 'X' =>
    let front := if spec.alternate && u != 0 then ['0', 'X'] else []
    some (padNumber spec front ((Nat.toDigits 16 (unsigned u)).map Char.toUpper), wordMisfit)
  | 'e' | 'E' | 'f' | 'F' | 'g' | 'G' =>
    let (value, misfit) := real arg
    some (writeReal spec letter value, misfit)
  | _ => none

/-- What a format writes. -/
structure Written where
  bytes : List UInt8
  /-- The arguments that do not fit their conversion. -/
  misfits : List (String × Misfit)
  /-- What is wrong with the format. -/
  fault : Option String

/-- What one pass over a format comes to. -/
structure Pass extends Written where
  /-- The arguments that are left. -/
  left : List String
  /-- Nothing more is written. -/
  ended : Bool

/-- A pass that ends here. -/
def Pass.last (left : List String) (ended : Bool) (fault : Option String) : Pass :=
  { bytes := [], misfits := [], fault := fault, left := left, ended := ended }

/-- A pass with bytes in front of what it writes. -/
def Pass.behind (p : Pass) (bytes : List UInt8) : Pass := { p with bytes := bytes ++ p.bytes }

/-- One pass over a format. -/
def pass : Nat → List Char → List String → Pass
  | 0, _, args => .last args false none
  | _, [], args => .last args false none
  | fuel + 1, '\\' :: rest, args =>
    match readEscape false rest with
    | none => .last args true none
    | some (bytes, rest) => (pass fuel rest args).behind bytes
  | fuel + 1, '%' :: '%' :: rest, args => (pass fuel rest args).behind [37]
  | fuel + 1, '%' :: rest, args =>
    let (spec, behind, args) := readSpec rest args
    match behind with
    | [] => .last args true (some "missing format character")
    | letter :: after =>
      let arg := args.headD ""
      if letter == 'b' then
        let (bytes, ended) := escaped arg
        if ended then (Pass.last (args.drop 1) true none).behind (pad spec bytes)
        else (pass fuel after (args.drop 1)).behind (pad spec bytes)
      else
        match convert? spec letter arg with
        | none =>
          let shown := rest.take (rest.length - after.length)
          .last args true (some ("%" ++ String.ofList shown ++ ": invalid directive"))
        | some (bytes, misfit) =>
          let p := (pass fuel after (args.drop 1)).behind bytes
          { p with misfits := (misfit.map fun m => (arg, m)).toList ++ p.misfits }
  | fuel + 1, c :: rest, args => (pass fuel rest args).behind (bytesOf [c])

/-- Passes over a format as long as arguments are left. -/
def passes (format : List Char) : Nat → List String → Written
  | 0, _ => { bytes := [], misfits := [], fault := none }
  | fuel + 1, args =>
    let p := pass (format.length + 1) format args
    if p.ended || p.left.isEmpty || p.left.length = args.length then p.toWritten
    else
      let more := passes format fuel p.left
      { more with bytes := p.bytes ++ more.bytes, misfits := p.misfits ++ more.misfits }

/-- **What a format writes for arguments.** -/
def render (format : String) (args : List String) : Written :=
  passes format.toList (args.length + 1) args

end Arbor.Shell.Format
