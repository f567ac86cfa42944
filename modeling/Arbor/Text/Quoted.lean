import Arbor.Text.Visible

/-! # Quoted display of characters and texts

Messages show an offending character between single quotes and an offending piece of text between
double quotes. The delimiter, the backslash and the usual control characters are escaped by a
backslash; a character without a visible form is shown by its code point. -/

namespace Arbor.Text

/-- The code point in lower-case hexadecimal between `\u{` and `}`. -/
def codePointEscape (c : Char) : String :=
  "\\u\x7b" ++ String.ofList (Nat.toDigits 16 c.toNat) ++ "\x7d"

/-- One character inside the delimiter `delim`. -/
def quotedChar (delim : Char) (c : Char) : String :=
  if c = delim then "\\" ++ String.singleton c
  else if c = '\\' then "\\\\"
  else if c = '\n' then "\\n"
  else if c = '\r' then "\\r"
  else if c = '\t' then "\\t"
  else if c.toNat = 0 then "\\0"
  else if isExtending c || isHidden c then codePointEscape c
  else String.singleton c

/-- A character between single quotes. -/
def showChar (c : Char) : String := "'" ++ quotedChar '\'' c ++ "'"

/-- A text between double quotes. -/
def showText (s : String) : String := "\"" ++ String.join (s.toList.map (quotedChar '"')) ++ "\""

end Arbor.Text
