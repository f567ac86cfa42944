import Arbor.Shell.Format

/-! # Values

A value is a number of double precision or a text. A text of the input is taken for a number where
it looks like one. Each character stands for a byte. -/

namespace Arbor.Shell.Program.Awk

/-- A value. -/
inductive Value where
  /-- Nothing yet: the number zero and the empty text. -/
  | unset
  | number (x : Float)
  | text (cs : List Char)
  /-- A text of the input. -/
  | input (cs : List Char)

/-- The character is a blank. -/
def isSpace (c : Char) : Bool := c == ' ' || ('\t' ≤ c && c ≤ '\r')

/-! ### Numbers of texts -/

/-- The number of hexadecimal digits behind `0x`, if there are some. -/
def hexadecimal? (cs : List Char) : Option Float :=
  match cs with
  | '0' :: x :: rest =>
    let (n, digits) := Format.readDigits 16 rest
    if (x == 'x' || x == 'X') && !digits.isEmpty then some (Float.ofNat n) else none
  | _ => none

/-- The number of a word for what is no finite number. -/
def wordNumber (cs : List Char) : Float :=
  match (cs.take 3).map Char.toLower with
  | ['i', 'n', 'f'] => 1 / 0
  | ['n', 'a', 'n'] => 0 / 0
  | _ => 0

/-- The number at the front of a text, zero if there is none. -/
def numberOf (cs : List Char) : Float :=
  let body := cs.dropWhile isSpace
  let (negative, digits) := match body with
    | '-' :: rest => (true, rest)
    | '+' :: rest => (false, rest)
    | rest => (false, rest)
  let size := match hexadecimal? digits, Decimal.read? digits with
    | some x, _ => x
    | none, some (d, _) => if digits.head?.any (fun c => c == '-' || c == '+') then 0 else d.toFloat
    | none, none => wordNumber digits
  if negative then -size else size

/-- The text is a decimal number, with or without blanks around it. -/
def looksNumeric (cs : List Char) : Bool :=
  match Decimal.read? (cs.dropWhile isSpace) with
  | some (_, rest) => rest.all isSpace
  | none => false

/-! ### Texts of numbers -/

/-- The whole number that a number is, if it has at most 64 bits. -/
def whole? (x : Float) : Option Int :=
  match Decimal.ofFloat? x with
  | none => none
  | some d =>
    let unit := Int.ofNat (Decimal.ten d.places)
    let n := d.value / unit
    if d.value % unit = 0 && -0x8000000000000000 ≤ n && n < 0x10000000000000000 then some n
      else none

/-- A number cut to a whole one between bounds. -/
def truncated (low high : Int) (x : Float) : Int :=
  match Decimal.ofFloat? x with
  | none => if x < 0 then low else if 0 < x then high else low
  | some d => max low (min high (d.value.tdiv (Int.ofNat (Decimal.ten d.places))))

/-- A number as formats see it. -/
def realOf (x : Float) : Format.Real :=
  match Decimal.ofFloat? x with
  | some d => .inl d
  | none => .inr (if x < 0 then "-inf" else if 0 < x then "inf" else "-nan")

namespace Value

/-- The value as a number. -/
def toNumber : Value → Float
  | .unset => 0
  | .number x => x
  | .text cs => numberOf cs
  | .input cs => numberOf cs

/-- The value counts as a number where it is compared. -/
def isNumeric : Value → Bool
  | .unset => true
  | .number _ => true
  | .text _ => false
  | .input cs => looksNumeric cs

/-- The value counts as true. -/
def isTrue : Value → Bool
  | .unset => false
  | .number x => x != 0
  | .text cs => !cs.isEmpty
  | .input cs => if looksNumeric cs then numberOf cs != 0 else !cs.isEmpty

/-- The value of a truth. -/
def ofBool (b : Bool) : Value := .number (if b then 1 else 0)

/-- The value of a count. -/
def ofNat (n : Nat) : Value := .number (Float.ofNat n)

end Value

/-! ### Formats -/

/-- Why a format cannot be written. -/
inductive FormatFault where
  | tooFew
  /-- The conversion with a number is none. -/
  | improper (number : Nat)

/-- What a conversion writes for a value, whose text is given too. -/
def convert? (spec : Format.Spec) (letter : Char) (value : Value) (text : List Char) :
    Option (List UInt8) :=
  let x := value.toNumber
  let signed := truncated (-0x8000000000000000) 0xFFFFFFFFFFFFFFFF x
  let word := Format.unsigned signed
  match letter with
  | 's' =>
    let bytes := ofOctets text
    some (Format.pad spec (bytes.take (spec.precision.getD bytes.length)))
  | 'c' =>
    let c := if value matches .text _ || !value.isNumeric then (text.head?).getD (Char.ofNat 0)
      else Char.ofNat (truncated 0 0x7FFFFFFF x).toNat
    some (Format.pad spec [UInt8.ofNat c.toNat])
  | 'd' | 'i' =>
    some (Format.padNumber spec (Format.signOf spec (signed < 0)) (Nat.toDigits 10 signed.natAbs))
  | 'u' => some (Format.padNumber spec [] (Nat.toDigits 10 word))
  | 'o' =>
    let front := if spec.alternate && word ≠ 0 then ['0'] else []
    some (Format.padNumber spec front (Nat.toDigits 8 word))
  | 'x' =>
    let front := if spec.alternate && word ≠ 0 then ['0', 'x'] else []
    some (Format.padNumber spec front (Nat.toDigits 16 word))
  | 'X' =>
    let front := if spec.alternate && word ≠ 0 then ['0', 'X'] else []
    some (Format.padNumber spec front ((Nat.toDigits 16 word).map Char.toUpper))
  | 'e' | 'E' | 'f' | 'F' | 'g' | 'G' => some (Format.writeReal spec letter (realOf x))
  | _ => none

/-- A measure of a conversion: a number, or a star for the next value. -/
def readMeasure (cs : List Char) (args : List (Value × List Char)) :
    Option (Int × List Char × List (Value × List Char)) :=
  match cs, args with
  | '*' :: _, [] => none
  | '*' :: rest, (v, _) :: args => some (truncated (-0xFFFF) 0xFFFF v.toNumber, rest, args)
  | cs, args => some (Format.number (cs.takeWhile Char.isDigit), cs.dropWhile Char.isDigit, args)

/-- The precision of a conversion, behind a point. -/
def readPrecision (cs : List Char) (args : List (Value × List Char)) :
    Option (Option Nat × List Char × List (Value × List Char)) := do
  match cs with
  | '.' :: rest => do
    let (n, rest, args) ← readMeasure rest args
    return (some n.toNat, rest, args)
  | cs => return (none, cs, args)

/-- What a format writes for values with their texts; `number` counts its conversions. What was
written before a fault is kept. -/
def format : Nat → Nat → List Char → List (Value × List Char) → List Char × Option FormatFault
  | 0, _, _, _ => ([], none)
  | _ + 1, _, [], _ => ([], none)
  | fuel + 1, number, '%' :: '%' :: rest, args =>
    let (more, fault) := format fuel number rest args
    ('%' :: more, fault)
  | fuel + 1, number, '%' :: rest, args =>
    let flags := rest.takeWhile Format.isFlag
    match readMeasure (rest.dropWhile Format.isFlag) args with
    | none => ([], some .tooFew)
    | some (width, rest, args) =>
      match readPrecision rest args with
      | none => ([], some .tooFew)
      | some (precision, rest, args) =>
        let spec : Format.Spec := {
          left := flags.contains '-' || width < 0
          plus := flags.contains '+'
          space := flags.contains ' '
          zero := flags.contains '0'
          alternate := flags.contains '#'
          width := width.natAbs
          precision := precision }
        match rest.dropWhile (fun c => c == 'l' || c == 'h'), args with
        | [], _ => ([], some (.improper number))
        | letter :: _, [] =>
          ([], some (if (convert? spec letter .unset []).isSome then .tooFew else .improper number))
        | letter :: after, (v, text) :: args =>
          match convert? spec letter v text with
          | none => ([], some (.improper number))
          | some bytes =>
            let (more, fault) := format fuel (number + 1) after args
            (octets bytes ++ more, fault)
  | fuel + 1, number, c :: rest, args =>
    let (more, fault) := format fuel number rest args
    (c :: more, fault)

/-- The text of a number by a format, unless the number is whole. -/
def numberText (formatText : List Char) (x : Float) : List Char :=
  match whole? x with
  | some n => (toString n).toList
  | none => (format (formatText.length + 1) 1 formatText [(.number x, [])]).1

/-- The text of a value; a number that is not whole is written by a format. -/
def Value.toText (formatText : List Char) : Value → List Char
  | .unset => []
  | .number x => numberText formatText x
  | .text cs => cs
  | .input cs => cs

/-- Which of two values is the smaller: as numbers if both are, else as texts. -/
def Value.order (formatText : List Char) (a b : Value) : Option Ordering :=
  if a.isNumeric && b.isNumeric then
    let x := a.toNumber
    let y := b.toNumber
    if x < y then some .lt else if x == y then some .eq else if y < x then some .gt else none
  else
    let s := a.toText formatText
    let t := b.toText formatText
    some (if s == t then .eq else if s < t then .lt else .gt)

end Arbor.Shell.Program.Awk
