import Arbor.Yaml.Scalar

/-! # Tokens

The signs and scalars of a document. Blocks are written by indentation; where one starts or ends, a
token is put that the text does not show. A scalar turns out to be a key only when a colon follows
it, on the same line and not too far away; the tokens that say so are then put in front of it. -/

namespace Arbor.Yaml

/-- A token. -/
inductive Token where
  | version (major minor : Nat)
  /-- The declaration of a handle for tags. -/
  | declaration (handle : String)
  | documentStart
  | documentEnd
  | streamEnd
  | listStart
  | mapStart
  /-- The end of a list or a map that is written by indentation. -/
  | blockEnd
  | bracketListStart
  | bracketListEnd
  | bracketMapStart
  | bracketMapEnd
  /-- The dash of an item. -/
  | item
  /-- The comma between items in brackets. -/
  | comma
  | key
  | value
  | alias (name : String)
  | anchor (name : String)
  /-- A tag by its handle, which is empty if the tag is written in full. -/
  | tag (handle : String)
  | scalar (text : String) (isPlain : Bool)
  deriving DecidableEq, Repr

/-- A token that may turn out to be a key. -/
structure Candidate where
  /-- It has to be a key, since nothing else can start there. -/
  required : Bool
  /-- How many tokens are in front of it. -/
  number : Nat
  cursor : Cursor

/-- How far the tokens of a document have been read. -/
structure Scanner where
  cursor : Cursor
  /-- One more than the column of the innermost block, or zero outside of blocks. -/
  margin : Nat
  /-- The margins of the blocks around. -/
  margins : List Nat
  /-- For each bracket that is open, the innermost first, and for the document, what may be a
  key. -/
  candidates : List (Option Candidate)
  /-- A key may start here. -/
  keyAllowed : Bool
  tokens : List Token

namespace Scanner

/-- The start of a document. -/
def start (cs : List Char) : Scanner where
  cursor := .start cs
  margin := 0
  margins := []
  candidates := [none]
  keyAllowed := true
  tokens := []

/-- The position is between brackets. -/
def inBrackets (s : Scanner) : Bool := 1 < s.candidates.length

/-- Adds a token. -/
def emit (s : Scanner) (t : Token) : Scanner := { s with tokens := s.tokens ++ [t] }

/-- Moves to another position. -/
def moveTo (s : Scanner) (c : Cursor) : Scanner := { s with cursor := c }

/-- Adds a token of one sign. -/
def sign (s : Scanner) (t : Token) : Scanner := (s.emit t).moveTo s.cursor.skip

/-- Whether a key may start behind the position. -/
def allow (s : Scanner) (allowed : Bool) : Scanner := { s with keyAllowed := allowed }

/-- The most characters between the start of a key and the colon behind it. -/
def maxKey : Nat := 1024

/-- Gives up the candidates that end on another line or are too long. -/
def dropStale (s : Scanner) : Option Scanner := do
  let check := fun (k : Option Candidate) =>
    match k with
    | none => some none
    | some k =>
      if s.cursor.line ≤ k.cursor.line && s.cursor.index ≤ k.cursor.index + maxKey then
        some (some k)
      else if k.required then none
      else some none
  return { s with candidates := ← s.candidates.mapM check }

/-- Gives up the innermost candidate. -/
def dropCandidate (s : Scanner) : Option Scanner :=
  match s.candidates with
  | some k :: rest => if k.required then none else some { s with candidates := none :: rest }
  | _ => some s

/-- Takes what follows for a candidate, if a key may start here. -/
def addCandidate (s : Scanner) : Option Scanner := do
  if !s.keyAllowed then return s
  let required := !s.inBrackets && s.margin == s.cursor.column + 1
  let s ← s.dropCandidate
  let k : Candidate := { required := required, number := s.tokens.length, cursor := s.cursor }
  return { s with candidates := some k :: s.candidates.drop 1 }

/-- Opens a block at a column with a token in front of others, unless there is one that far in. -/
def openBlock (s : Scanner) (column number : Nat) (t : Token) : Scanner :=
  if s.inBrackets || column < s.margin then s
  else { s with
    margins := s.margin :: s.margins
    margin := column + 1
    tokens := s.tokens.take number ++ t :: s.tokens.drop number }

/-- Closes the blocks whose margin is greater than the one given. -/
def closeBlocks (keep : Nat) (s : Scanner) : Scanner :=
  if s.inBrackets then s
  else
    let stack := s.margin :: s.margins
    let closed := stack.takeWhile fun m => keep < m
    { s with
      margin := (stack.drop closed.length).headD 0
      margins := stack.drop (closed.length + 1)
      tokens := s.tokens ++ closed.map fun _ => .blockEnd }

/-- Goes to the next token: behind spaces, comments and line ends. -/
def skipToToken : Nat → Scanner → Scanner
  | 0, s => s
  | fuel + 1, s =>
    let c := s.cursor
    let c := if c.column == 0 && c.head?.any (fun ch => ch.toNat == 0xFEFF) then c.skip else c
    let c := c.skipWhile fun ch => ch == ' ' || ((s.inBrackets || !s.keyAllowed) && ch == '\t')
    let c := if c.head? == some '#' then c.skipLine else c
    if c.head?.any isBreak then
      skipToToken fuel { s with cursor := c.skipBreak, keyAllowed := s.keyAllowed || !s.inBrackets }
    else s.moveTo c

/-! ### Declarations, anchors and tags -/

/-- A number of at most nine digits. -/
def number? (c : Cursor) : Option (Nat × Cursor) :=
  let digits := c.rest.takeWhile Char.isDigit
  if digits.isEmpty || 9 < digits.length then none
  else some ((String.ofList digits).toNat?.getD 0, c.advance digits.length)

/-- The characters of the addresses that tags are. -/
def isAddressChar (wide : Bool) (c : Char) : Bool :=
  isNameChar c || ";/?:@&=+$.!~*'()".toList.contains c || (wide && ",[]".toList.contains c)

/-- The byte of an escape. -/
def escapedByte? : List Char → Option Nat
  | '%' :: a :: b :: _ => Text.hexNumber? [a, b]
  | _ => none

/-- How many bytes a character has by its first byte. -/
def byteWidth? (b : Nat) : Option Nat :=
  if b < 0x80 then some 1
  else if b < 0xC0 then none
  else if b < 0xE0 then some 2
  else if b < 0xF0 then some 3
  else if b < 0xF8 then some 4
  else none

/-- The position behind a character that is written by its bytes. -/
def escapedChar? (c : Cursor) : Option Cursor := do
  let width ← byteWidth? (← escapedByte? c.rest)
  let others := (List.range (width - 1)).all fun i =>
    (escapedByte? (c.rest.drop (3 * (i + 1)))).any fun b => 0x80 ≤ b && b < 0xC0
  if others then return c.advance (3 * width) else none

/-- The position behind an address, which may be empty. -/
def skipAddress (wide : Bool) : Nat → Cursor → Option Cursor
  | 0, c => some c
  | fuel + 1, c =>
    match c.head? with
    | some '%' => do skipAddress wide fuel (← escapedChar? c)
    | some ch => if isAddressChar wide ch then skipAddress wide fuel c.skip else some c
    | none => some c

/-- The position behind an address that is not empty. -/
def address? (wide : Bool) (c : Cursor) : Option Cursor := do
  let behind ← skipAddress wide (c.rest.length + 1) c
  if behind.index = c.index then none else some behind

/-- The handle at a position: a name between two marks, or a mark and what may be the start of an
address. -/
def handle? (c : Cursor) : Option (String × Cursor) :=
  if c.head? != some '!' then none
  else
    let name := c.skip.rest.takeWhile isNameChar
    let behind := c.advance (name.length + 1)
    if behind.head? == some '!' then some (String.ofList ('!' :: name ++ ['!']), behind.skip)
    else some (String.ofList ('!' :: name), behind)

/-- The declaration of a version, behind its name. -/
def versionOf? (c : Cursor) : Option (Token × Cursor) := do
  let (major, c) ← number? (c.skipWhile isPad)
  if c.head? != some '.' then none
  let (minor, c) ← number? c.skip
  return (.version major minor, c)

/-- The declaration of a handle, behind its name. -/
def declarationOf? (c : Cursor) : Option (Token × Cursor) := do
  let (handle, c) ← handle? (c.skipWhile isPad)
  if !handle.endsWith "!" || !c.head?.any isPad then none
  let c ← address? true (c.skipWhile isPad)
  if !startsGap c.rest then none
  return (.declaration handle, c)

/-- The declaration at a position. -/
def directive? (c : Cursor) : Option (Token × Cursor) := do
  let c := c.skip
  let name := c.rest.takeWhile isNameChar
  let c := c.advance name.length
  if !startsGap c.rest then none
  let (t, c) ← match String.ofList name with
    | "YAML" => versionOf? c
    | "TAG" => declarationOf? c
    | _ => none
  return (t, ← c.endLine?)

/-- The name of an anchor or an alias, behind its sign. -/
def anchorName? (c : Cursor) : Option (String × Cursor) :=
  let name := c.skip.rest.takeWhile isNameChar
  let c := c.advance (name.length + 1)
  let ends := startsGap c.rest || c.head?.any fun ch => "?:,]\x7d%@\x60".toList.contains ch
  if name.isEmpty || !ends then none else some (String.ofList name, c)

/-- The tag at a position. -/
def tag? (inBrackets : Bool) (c : Cursor) : Option (Token × Cursor) := do
  let (handle, c) ←
    if c.rest[1]? == some '<' then do
      let c ← address? true (c.advance 2)
      if c.head? != some '>' then none
      pure ("", c.skip)
    else do
      let (handle, behind) ← handle? c
      if 1 < handle.length && handle.endsWith "!" then pure (handle, ← address? false behind)
      else
        let behind ← skipAddress false (behind.rest.length + 1) behind
        pure (if behind.index = c.index + 1 then "" else "!", behind)
  if startsGap c.rest || (inBrackets && c.head? == some ',') then return (.tag handle, c) else none

/-! ### Steps -/

/-- Ends whatever is open, before a sign of the document itself. -/
def closeAll (s : Scanner) : Option Scanner := do
  return (← (s.closeBlocks 0).dropCandidate).allow false

/-- The end of the document. -/
def readEnd (s : Scanner) : Option Scanner := do return (← s.closeAll).emit .streamEnd

/-- Opens a bracket. -/
def openBracket (s : Scanner) (t : Token) : Option Scanner := do
  let s ← s.addCandidate
  return ({ s with candidates := none :: s.candidates }.allow true).sign t

/-- Closes a bracket. -/
def closeBracket (s : Scanner) (t : Token) : Option Scanner := do
  let s ← s.dropCandidate
  let s := if s.inBrackets then { s with candidates := s.candidates.drop 1 } else s
  return (s.allow false).sign t

/-- Opens a block where a sign stands, if a key may start there. -/
def openHere (s : Scanner) (t : Token) : Option Scanner :=
  if s.inBrackets then some s
  else if s.keyAllowed then some (s.openBlock s.cursor.column s.tokens.length t)
  else none

/-- The dash of an item. -/
def readItem (s : Scanner) : Option Scanner := do
  let s ← (← s.openHere .listStart).dropCandidate
  return (s.allow true).sign .item

/-- The sign in front of a key. -/
def readKey (s : Scanner) : Option Scanner := do
  let s ← (← s.openHere .mapStart).dropCandidate
  return (s.allow !s.inBrackets).sign .key

/-- The colon in front of a value. If there is a candidate, it is a key. -/
def readValue (s : Scanner) : Option Scanner :=
  match s.candidates with
  | some k :: rest =>
    let s := { s with
      candidates := none :: rest
      tokens := s.tokens.take k.number ++ Token.key :: s.tokens.drop k.number }
    some (((s.openBlock k.cursor.column k.number .mapStart).allow false).sign .value)
  | _ => do
    let s ← s.openHere .mapStart
    return (s.allow !s.inBrackets).sign .value

/-- A token with a text, which may be a key. -/
def readText (s : Scanner) (read : Cursor → Option (Token × Cursor)) : Option Scanner := do
  let s ← s.addCandidate
  let (t, c) ← read s.cursor
  return ((s.allow false).emit t).moveTo c

/-- A plain scalar. Behind the end of a line a key may start. -/
def readPlain (s : Scanner) : Option Scanner := do
  let s ← s.addCandidate
  let (p, c) ← plain? s.inBrackets s.margin s.cursor
  return ((s.allow p.lineEnded).emit (.scalar (String.ofList p.text) true)).moveTo c

/-- A block of lines. -/
def readBlock (literal : Bool) (s : Scanner) : Option Scanner := do
  let s ← s.dropCandidate
  let (text, c) ← block? literal s.margin s.cursor
  return ((s.allow true).emit (.scalar (String.ofList text) false)).moveTo c

/-- A quoted scalar. -/
def readQuoted (single : Bool) (s : Scanner) : Option Scanner :=
  s.readText fun c => do
    let (text, c) ← quoted? single c
    return (.scalar (String.ofList text) false, c)

/-- A character that starts no plain scalar. -/
def isSign (c : Char) : Bool := "-?:,[]\x7b\x7d#&*!|>'\"%@\x60".toList.contains c

/-- The token at the position. -/
def readToken (s : Scanner) : Option Scanner :=
  let c := s.cursor
  let gapBehind := startsGap (c.rest.drop 1)
  if c.column == 0 && c.head? == some '%' then do
    let s ← s.closeAll
    let (t, c) ← directive? c
    return (s.emit t).moveTo c
  else if c.atMark '-' then do return ((← s.closeAll).emit .documentStart).moveTo (c.advance 3)
  else if c.atMark '.' then do return ((← s.closeAll).emit .documentEnd).moveTo (c.advance 3)
  else
    match c.head? with
    | none => s.readEnd
    | some '[' => s.openBracket .bracketListStart
    | some '\x7b' => s.openBracket .bracketMapStart
    | some ']' => s.closeBracket .bracketListEnd
    | some '\x7d' => s.closeBracket .bracketMapEnd
    | some ',' => do return ((← s.dropCandidate).allow true).sign .comma
    | some '*' => s.readText fun c => (anchorName? c).map fun r => (.alias r.1, r.2)
    | some '&' => s.readText fun c => (anchorName? c).map fun r => (.anchor r.1, r.2)
    | some '!' => s.readText (tag? s.inBrackets)
    | some '\'' => s.readQuoted true
    | some '"' => s.readQuoted false
    | some ch =>
      if ch == '-' && gapBehind then s.readItem
      else if ch == '?' && (s.inBrackets || gapBehind) then s.readKey
      else if ch == ':' && (s.inBrackets || gapBehind) then s.readValue
      else if ch == '|' && !s.inBrackets then s.readBlock true
      else if ch == '>' && !s.inBrackets then s.readBlock false
      else if (!isGap ch && !isSign ch) || ch == '-' || ch == '?' || ch == ':' then s.readPlain
      else none

/-- Reads one token. -/
def step (s : Scanner) : Option Scanner := do
  let s := skipToToken (s.cursor.rest.length + 1) s
  let s ← s.dropStale
  (s.closeBlocks (s.cursor.column + 1)).readToken

/-- Reads tokens up to the end, in at most `fuel` steps. -/
def run : Nat → Scanner → Option (List Token)
  | 0, _ => none
  | fuel + 1, s =>
    if s.tokens.getLast? = some .streamEnd then some s.tokens else (s.step).bind (run fuel)

end Scanner

/-- **The tokens of a document.** -/
def Token.scan? (cs : List Char) : Option (List Token) :=
  if cs.all isReadable then Scanner.run (cs.length + 2) (.start cs) else none

end Arbor.Yaml
