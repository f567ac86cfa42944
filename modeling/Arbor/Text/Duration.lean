import Arbor.Text.Blank

/-! # Spans of time as text

A span of whole milliseconds is shown in its largest unit that is not zero, seconds with the fewest
decimals that lose nothing. -/

namespace Arbor.Text

/-- The decimals of a count of thousandths, without zeros at the end. -/
def thousandths (n : Nat) : List Char :=
  let digits := [n / 100 % 10, n / 10 % 10, n % 10].map Nat.digitChar
  (digits.reverse.dropWhile (· == '0')).reverse

/-- **The text of a span** of `ms` milliseconds. -/
def duration (ms : Nat) : String :=
  if ms = 0 then "0ns"
  else if ms < 1000 then Nat.repr ms ++ "ms"
  else
    let decimals := thousandths (ms % 1000)
    Nat.repr (ms / 1000) ++ (if decimals.isEmpty then "" else "." ++ String.ofList decimals) ++ "s"

end Arbor.Text
