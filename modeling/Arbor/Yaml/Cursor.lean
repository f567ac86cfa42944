/-! # Positions in a document

A document is read from front to back. A cursor holds what is left of it and where that stands: the
number of characters before it, its line and its column. Lines end with a line feed, a carriage
return, both together, or one of the line ends beyond ASCII. -/

namespace Arbor.Yaml

/-- A line ends here. -/
def isBreak (c : Char) : Bool :=
  c == '\n' || c == '\r' || c.toNat == 0x85 || c.toNat == 0x2028 || c.toNat == 0x2029

/-- A space or a tab. -/
def isPad (c : Char) : Bool := c == ' ' || c == '\t'

/-- A space, a tab, or the end of a line. -/
def isGap (c : Char) : Bool := isPad c || isBreak c

/-- The characters of names. -/
def isNameChar (c : Char) : Bool := c.isAlphanum || c == '_' || c == '-'

/-- The characters that may stand in a document. -/
def isReadable (c : Char) : Bool :=
  let n := c.toNat
  n == 0x09 || n == 0x0A || n == 0x0D || (0x20 ≤ n && n ≤ 0x7E) || n == 0x85 ||
    (0xA0 ≤ n && n ≤ 0xFFFD) || 0x10000 ≤ n

/-- A gap or the end of the document comes first. -/
def startsGap (cs : List Char) : Bool := cs.head?.all isGap

/-- A position in a document. -/
structure Cursor where
  rest : List Char
  /-- How many characters are in front. -/
  index : Nat
  line : Nat
  column : Nat

namespace Cursor

/-- The start of a document. -/
def start (cs : List Char) : Cursor := { rest := cs, index := 0, line := 0, column := 0 }

/-- The character at the position. -/
def head? (c : Cursor) : Option Char := c.rest.head?

/-- The document ends here. -/
def atEnd (c : Cursor) : Bool := c.rest.isEmpty

/-- The position `n` characters on, on the same line. -/
def advance (c : Cursor) (n : Nat) : Cursor :=
  { c with rest := c.rest.drop n, index := c.index + n, column := c.column + n }

/-- The position behind one character. -/
def skip (c : Cursor) : Cursor := c.advance 1

/-- The position behind the characters that fulfil a condition, which no line end does. -/
def skipWhile (p : Char → Bool) (c : Cursor) : Cursor := c.advance (c.rest.takeWhile p).length

/-- The end of a line at the position, as it is kept in a text, and the position behind it. -/
def readBreak (c : Cursor) : List Char × Cursor :=
  let next := fun (n : Nat) =>
    { rest := c.rest.drop n, index := c.index + n, line := c.line + 1, column := 0 : Cursor }
  match c.rest with
  | '\r' :: '\n' :: _ => (['\n'], next 2)
  | ch :: _ =>
    if ch.toNat == 0x2028 || ch.toNat == 0x2029 then ([ch], next 1)
    else if isBreak ch then (['\n'], next 1)
    else ([], c)
  | [] => ([], c)

/-- The position behind the end of a line. -/
def skipBreak (c : Cursor) : Cursor := c.readBreak.2

/-- The position at the end of the line. -/
def skipLine (c : Cursor) : Cursor := c.skipWhile fun ch => !isBreak ch

/-- The position behind spaces, tabs and a comment, if the line ends there, and behind its end. -/
def endLine? (c : Cursor) : Option Cursor :=
  let c := c.skipWhile isPad
  let c := if c.head? == some '#' then c.skipLine else c
  if c.head?.all isBreak then some c.skipBreak else none

/-- Three equal signs at the start of a line, with a gap behind them. -/
def atMark (sign : Char) (c : Cursor) : Bool :=
  c.column == 0 && c.rest.take 3 == [sign, sign, sign] && startsGap (c.rest.drop 3)

/-- The sign of the start or the end of a document comes next. -/
def atAnyMark (c : Cursor) : Bool := c.atMark '-' || c.atMark '.'

end Cursor

end Arbor.Yaml
