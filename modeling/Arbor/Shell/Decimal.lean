/-! # Decimals

A decimal is a whole number of its last place. Numbers of text are read as decimals, rounded to the
nearest number of double precision where a program computes with those, and written with a number of
places, with an exponent, or in the shorter of both forms. -/

namespace Arbor.Shell

/-- A number with a number of places behind its point. -/
structure Decimal where
  value : Int
  places : Nat
  deriving DecidableEq, Repr

namespace Decimal

/-- Ten to a power. -/
def ten (n : Nat) : Nat := Nat.pow 10 n

/-- The decimal zero. -/
def zero : Decimal := ⟨0, 0⟩

/-- A number with the given places, which are not fewer than it has. -/
def scaled (places : Nat) (d : Decimal) : Int := d.value * Int.ofNat (ten (places - d.places))

/-- Which of two decimals is the smaller. -/
def order (a b : Decimal) : Ordering :=
  let x := a.value * Int.ofNat (ten b.places)
  let y := b.value * Int.ofNat (ten a.places)
  if x < y then .lt else if x = y then .eq else .gt

/-! ### Double precision -/

/-- The number of double precision that is nearest. -/
def toFloat (d : Decimal) : Float :=
  let size := Float.ofScientific d.value.natAbs true d.places
  if d.value < 0 then -size else size

/-- The exact value of a number of double precision, if it is finite. -/
def ofFloat? (x : Float) : Option Decimal :=
  let bits := x.toBits.toNat
  let exponent := bits / 0x10000000000000 % 0x800
  let fraction := bits % 0x10000000000000
  let size := if exponent = 0 then fraction else fraction + 0x10000000000000
  let power := max exponent 1
  let (value, places) : Nat × Nat :=
    if 1075 ≤ power then (size * Nat.pow 2 (power - 1075), 0)
    else (size * Nat.pow 5 (1075 - power), 1075 - power)
  if exponent = 0x7FF then none
  else some ⟨if 0x8000000000000000 ≤ bits then -(value : Int) else value, places⟩

/-- The exact value of the nearest number of double precision. -/
def nearest (d : Decimal) : Decimal := (ofFloat? d.toFloat).getD d

/-! ### Reading -/

/-- The number of digits. -/
def digitsValue (digits : List Char) : Nat := digits.foldl (fun n c => 10 * n + (c.toNat - 48)) 0

/-- No number of double precision has an exponent beyond this one. -/
def maxExponent : Int := 1000

/-- The decimal with an exponent. -/
def shifted (value : Int) (places : Nat) (exponent : Int) : Decimal :=
  let left := max (-maxExponent) (min maxExponent exponent) - (places : Int)
  if 0 ≤ left then ⟨value * Int.ofNat (ten left.toNat), 0⟩ else ⟨value, (-left).toNat⟩

/-- The exponent at the front, if there is one, and what is behind. -/
def readExponent (cs : List Char) : Int × List Char :=
  match cs with
  | e :: rest =>
    let (sign, body) : Int × List Char := match rest with
      | '-' :: body => (-1, body)
      | '+' :: body => (1, body)
      | body => (1, body)
    let digits := body.takeWhile Char.isDigit
    if (e == 'e' || e == 'E') && !digits.isEmpty then
      (sign * (digitsValue digits : Int), body.drop digits.length)
    else (0, cs)
  | [] => (0, [])

/-- **The decimal at the front of a text,** and what is behind. -/
def read? (cs : List Char) : Option (Decimal × List Char) :=
  let (sign, body) : Int × List Char := match cs with
    | '-' :: body => (-1, body)
    | '+' :: body => (1, body)
    | body => (1, body)
  let whole := body.takeWhile Char.isDigit
  let behind := body.drop whole.length
  let places := match behind with
    | '.' :: rest => rest.takeWhile Char.isDigit
    | _ => []
  if whole.isEmpty && places.isEmpty then none
  else
    let rest := if behind.head? = some '.' then behind.drop (places.length + 1) else behind
    let (exponent, rest) := readExponent rest
    some (shifted (sign * (digitsValue (whole ++ places) : Int)) places.length exponent, rest)

/-! ### Writing -/

/-- A quotient, rounded to the nearest whole number; a half goes to the even neighbour. -/
def roundedQuotient (n d : Nat) : Nat :=
  let low := n / d
  let rest := 2 * (n % d)
  if d < rest || (rest = d && low % 2 = 1) then low + 1 else low

/-- The digits of a decimal without its sign, with a number of places. -/
def fixedDigits (places : Nat) (d : Decimal) : List Char :=
  let n := roundedQuotient (d.value.natAbs * ten places) (ten d.places)
  let digits := Nat.toDigits 10 n
  let digits := List.replicate (places + 1 - digits.length) '0' ++ digits
  let front := digits.take (digits.length - places)
  if places = 0 then front else front ++ '.' :: digits.drop (digits.length - places)

/-- The first `count` digits of a decimal, rounded, and the power of ten of the first of them. -/
def leading (count : Nat) (d : Decimal) : List Char × Int :=
  let size := d.value.natAbs
  if size = 0 then (List.replicate count '0', 0)
  else
    let length := (Nat.toDigits 10 size).length
    let power : Int := (length : Int) - 1 - (d.places : Int)
    if length ≤ count then (Nat.toDigits 10 size ++ List.replicate (count - length) '0', power)
    else
      let digits := Nat.toDigits 10 (roundedQuotient size (ten (length - count)))
      if count < digits.length then (digits.take count, power + 1) else (digits, power)

/-- The digits with an exponent behind them. -/
def withExponent (mark : Char) (digits : List Char) (power : Int) : List Char :=
  let size := Nat.toDigits 10 power.natAbs
  let size := List.replicate (2 - size.length) '0' ++ size
  let front := digits.take 1
  let back := digits.drop 1
  front ++ (if back.isEmpty then [] else '.' :: back) ++
    mark :: (if power < 0 then '-' else '+') :: size

/-- The digits of a decimal without its sign, with places and an exponent. -/
def exponentDigits (mark : Char) (places : Nat) (d : Decimal) : List Char :=
  let (digits, power) := leading (places + 1) d
  withExponent mark digits power

/-- Digits without the zeros at the end of their places. -/
def trimmed (digits : List Char) : List Char :=
  if !digits.contains '.' then digits
  else
    let short := (digits.reverse.dropWhile (· == '0')).reverse
    if short.getLast? = some '.' then short.dropLast else short

/-- The digits of a decimal without its sign in the shorter form; zeros at the end stay if
`full`. -/
def generalDigits (mark : Char) (full : Bool) (precision : Nat) (d : Decimal) : List Char :=
  let count := max precision 1
  let (digits, power) := leading count d
  if -4 ≤ power && power < (count : Int) then
    let fixed := fixedDigits ((count : Int) - 1 - power).toNat d
    if full then fixed else trimmed fixed
  else
    let digits := if full then digits
      else digits.take 1 ++ ((digits.drop 1).reverse.dropWhile (· == '0')).reverse
    withExponent mark digits power

end Decimal

end Arbor.Shell
