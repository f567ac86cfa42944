/-! # Decimal numbers in settings

A number is an optional plus sign and at least one ASCII digit. A minus sign, blanks and every other
character are refused, and so is a value that does not fit the width of the setting. -/

namespace Arbor.Text

/-- The value of a list of decimal digits, most significant first. -/
def digitsValue (cs : List Char) : Nat := cs.foldl (fun n c => 10 * n + (c.toNat - '0'.toNat)) 0

/-- The number below `bound` that a list of characters writes. -/
def decimalChars? (bound : Nat) (cs : List Char) : Option Nat :=
  let digits := match cs with
    | '+' :: rest => rest
    | cs => cs
  if digits.isEmpty || !digits.all Char.isDigit then none
  else if digitsValue digits < bound then some (digitsValue digits)
  else none

/-- The number below `bound` that a text writes. -/
def decimal? (bound : Nat) (s : String) : Option Nat := decimalChars? bound s.toList

end Arbor.Text
