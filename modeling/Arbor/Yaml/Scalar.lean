import Arbor.Text.Hex
import Arbor.Yaml.Cursor

/-! # Scalars

A scalar is written plainly, between quotes, or as a block of lines. Within a plain or a quoted
scalar the end of a line stands for a space; further line ends behind it stand for themselves. Each
reader gives the text and the position behind it, or nothing if there is a mistake. -/

namespace Arbor.Yaml

/-! ### Gaps -/

/-- What stands between two words of a scalar. -/
structure Gap where
  /-- There is the end of a line in it. -/
  broken : Bool
  /-- Spaces and tabs, if it is on one line. -/
  pads : List Char
  /-- The first end of a line. -/
  first : List Char
  /-- The other ends of lines. -/
  more : List Char

namespace Gap

/-- No gap. -/
def none : Gap := { broken := false, pads := [], first := [], more := [] }

/-- A gap that starts on a new line. -/
def folded : Gap := { none with broken := true }

/-- The characters that a gap stands for. -/
def text (g : Gap) : List Char :=
  if !g.broken then g.pads
  else if g.first.head? != some '\n' then g.first ++ g.more
  else if g.more.isEmpty then [' ']
  else g.more

/-- Reads spaces, tabs and line ends, at most `fuel` of them. Behind the end of a line a tab is a
mistake in the columns before `indent`. -/
def readWithin (indent : Nat) : Nat → Gap → Cursor → Option (Gap × Cursor)
  | 0, g, c => some (g, c)
  | fuel + 1, g, c =>
    match c.head? with
    | Option.none => some (g, c)
    | some ch =>
      if isPad ch then
        if !g.broken then readWithin indent fuel { g with pads := g.pads ++ [ch] } c.skip
        else if ch == '\t' && c.column < indent then Option.none
        else readWithin indent fuel g c.skip
      else if isBreak ch then
        let (text, next) := c.readBreak
        if g.broken then readWithin indent fuel { g with more := g.more ++ text } next
        else readWithin indent fuel { g with broken := true, first := text } next
      else some (g, c)

/-- The gap at a position, which goes on from one that was read. -/
def read (indent : Nat) (g : Gap) (c : Cursor) : Option (Gap × Cursor) :=
  readWithin indent (c.rest.length + 1) g c

end Gap

/-! ### Plain scalars -/

/-- The signs of lists and maps in brackets. -/
def isBracketSign (c : Char) : Bool := ",[]\x7b\x7d".toList.contains c

/-- How many characters a word of a plain scalar has; nothing if it holds a misplaced colon. -/
def wordLength? (inner : Bool) : List Char → Option Nat
  | [] => some 0
  | ch :: rest =>
    if isGap ch then some 0
    else if inner && ch == ':' && rest.head?.any fun d => isBracketSign d || d == '?' then none
    else if (ch == ':' && startsGap rest) || (inner && isBracketSign ch) then some 0
    else (wordLength? inner rest).map (· + 1)

/-- A plain scalar: its text, and whether a line has ended behind its last word. -/
structure Plain where
  text : List Char
  lineEnded : Bool

/-- Reads the words of a plain scalar behind a gap, at most `fuel` of them. -/
def plainWithin (inner : Bool) (indent : Nat) :
    Nat → List Char → Gap → Cursor → Option (Plain × Cursor)
  | 0, text, g, c => some (⟨text, g.broken⟩, c)
  | fuel + 1, text, g, c => do
    if c.atAnyMark || c.head? == some '#' then return (⟨text, g.broken⟩, c)
    let n ← wordLength? inner c.rest
    let (text, g) := if n = 0 then (text, g) else (text ++ g.text ++ c.rest.take n, Gap.none)
    let c := c.advance n
    if c.head?.all fun ch => !isGap ch then return (⟨text, g.broken⟩, c)
    let (g, c) ← g.read indent c
    if !inner && c.column < indent then return (⟨text, g.broken⟩, c)
    plainWithin inner indent fuel text g c

/-- The plain scalar at a position, in brackets or not, with lines from the column `indent` on. -/
def plain? (inner : Bool) (indent : Nat) (c : Cursor) : Option (Plain × Cursor) :=
  plainWithin inner indent (c.rest.length + 1) [] .none c

/-! ### Quoted scalars -/

/-- The characters that an escape of one letter stands for. -/
def escapes : List (Char × Nat) :=
  [('0', 0x00), ('a', 0x07), ('b', 0x08), ('t', 0x09), ('\t', 0x09), ('n', 0x0A), ('v', 0x0B),
    ('f', 0x0C), ('r', 0x0D), ('e', 0x1B), (' ', 0x20), ('"', 0x22), ('/', 0x2F), ('\\', 0x5C),
    ('N', 0x85), ('_', 0xA0), ('L', 0x2028), ('P', 0x2029)]

/-- How many digits the letter of an escape asks for. -/
def digitCount? : Char → Option Nat
  | 'x' => some 2
  | 'u' => some 4
  | 'U' => some 8
  | _ => none

/-- The character of a code point, if there is one. -/
def charOf? (n : Nat) : Option Char := if n.isValidChar then some (Char.ofNat n) else none

/-- The escape behind a backslash: its character and how many characters it takes. -/
def escape? : List Char → Option (Char × Nat)
  | [] => none
  | ch :: rest =>
    match digitCount? ch with
    | some n => do
      if rest.length < n then none
      let code ← Text.hexNumber? (rest.take n)
      return (← charOf? code, n + 1)
    | none => (escapes.lookup ch).map fun n => (Char.ofNat n, 1)

/-- The characters up to a quote or a gap, at most `fuel` of them. A backslash at the end of a line
ends them too; then a gap that is folded follows. -/
def quotedRun (single : Bool) : Nat → List Char → Cursor → Option (List Char × Gap × Cursor)
  | 0, text, c => some (text, .none, c)
  | fuel + 1, text, c =>
    match c.rest with
    | [] => some (text, .none, c)
    | ch :: rest =>
      if isGap ch then some (text, .none, c)
      else if single then
        if ch != '\'' then quotedRun single fuel (text ++ [ch]) c.skip
        else if rest.head? == some '\'' then quotedRun single fuel (text ++ [ch]) (c.advance 2)
        else some (text, .none, c)
      else if ch == '"' then some (text, .none, c)
      else if ch != '\\' then quotedRun single fuel (text ++ [ch]) c.skip
      else if rest.head?.any isBreak then some (text, .folded, c.skip.skipBreak)
      else do
        let (ch, n) ← escape? rest
        quotedRun single fuel (text ++ [ch]) (c.advance (n + 1))

/-- Reads a quoted scalar from behind its quote, in at most `fuel` words. -/
def quotedWithin (single : Bool) : Nat → List Char → Cursor → Option (List Char × Cursor)
  | 0, _, _ => none
  | fuel + 1, text, c => do
    if c.atAnyMark || c.atEnd then none
    let (text, g, c) ← quotedRun single (c.rest.length + 1) text c
    if c.head? == some (if single then '\'' else '"') then return (text, c.skip)
    let (g, c) ← g.read 0 c
    quotedWithin single fuel (text ++ g.text) c

/-- The quoted scalar at a position, with single or double quotes. -/
def quoted? (single : Bool) (c : Cursor) : Option (List Char × Cursor) :=
  quotedWithin single (c.rest.length + 1) [] c.skip

/-! ### Blocks of lines -/

/-- What happens to the line ends behind a block. -/
inductive Chomping where
  | clip
  | strip
  | keep
  deriving DecidableEq, Repr

/-- The head of a block. -/
structure BlockHead where
  chomping : Chomping
  /-- How much further in than its surroundings the block stands. -/
  step : Option Nat

/-- The chomping of a sign. -/
def chomping? : Option Char → Option Chomping
  | some '+' => some .keep
  | some '-' => some .strip
  | _ => none

/-- The step of a digit, which is not zero. -/
def step? : Option Char → Option Nat
  | some ch => if ch.isDigit && ch != '0' then some (ch.toNat - '0'.toNat) else none
  | none => none

/-- The head of a block behind its sign: a sign and a digit in any order. -/
def blockHead? (c : Cursor) : Option (BlockHead × Cursor) :=
  let refused := fun (c : Cursor) => c.head? == some '0'
  match chomping? c.head? with
  | some chomping =>
    let c := c.skip
    if refused c then none
    else
      match step? c.head? with
      | some n => some (⟨chomping, some n⟩, c.skip)
      | none => some (⟨chomping, none⟩, c)
  | none =>
    if refused c then none
    else
      match step? c.head? with
      | some n =>
        match chomping? c.skip.head? with
        | some chomping => some (⟨chomping, some n⟩, c.skip.skip)
        | none => some (⟨.clip, some n⟩, c.skip)
      | none => some (⟨.clip, none⟩, c)

/-- Reads empty lines, and the indentation of the line behind them, with at most `fuel` line ends.
An indentation of zero is not known yet; then the widest one is looked for. -/
def emptyLines (indent : Nat) : Nat → Nat → List Char → Cursor → Option (List Char × Nat × Cursor)
  | 0, widest, breaks, c => some (breaks, widest, c)
  | fuel + 1, widest, breaks, c =>
    let spaces := (c.rest.takeWhile (· == ' ')).length
    let c := c.advance (if indent = 0 then spaces else min spaces (indent - c.column))
    let widest := max widest c.column
    if (indent = 0 || c.column < indent) && c.head? == some '\t' then none
    else if c.head?.any isBreak then
      let (text, c) := c.readBreak
      emptyLines indent fuel widest (breaks ++ text) c
    else some (breaks, widest, c)

/-- The text of a block so far. -/
structure Block where
  text : List Char
  /-- The end of the last line. -/
  ending : List Char
  /-- The ends of the empty lines behind it. -/
  breaks : List Char
  /-- The last line starts with a space or a tab. -/
  padded : Bool

/-- Adds a line to a block. In a folded block, lines that start with words are joined by a space. -/
def Block.add (b : Block) (literal : Bool) (line ending breaks : List Char) : Block :=
  let padded := line.head?.any isPad
  let joins := !literal && b.ending.head? == some '\n' && !b.padded && !padded
  let between := if !joins then b.ending else if b.breaks.isEmpty then [' '] else []
  { text := b.text ++ between ++ b.breaks ++ line
    ending := ending
    breaks := breaks
    padded := padded }

/-- Reads the lines of a block, at most `fuel` of them. -/
def blockWithin (literal : Bool) (indent : Nat) : Nat → Block → Cursor → Option (Block × Cursor)
  | 0, b, c => some (b, c)
  | fuel + 1, b, c =>
    if c.column != indent || c.atEnd then some (b, c)
    else do
      let line := c.rest.takeWhile fun ch => !isBreak ch
      let (ending, c) := (c.advance line.length).readBreak
      let (breaks, _, c) ← emptyLines indent (c.rest.length + 1) 0 [] c
      blockWithin literal indent fuel (b.add literal line ending breaks) c

/-- **The block at a position,** literal or folded, inside of something that reaches to the column
`margin`. -/
def block? (literal : Bool) (margin : Nat) (c : Cursor) : Option (List Char × Cursor) := do
  let (head, c) ← blockHead? c.skip
  let c ← c.endLine?
  let given := (head.step.map fun n => margin - 1 + n).getD 0
  let (breaks, widest, c) ← emptyLines given (c.rest.length + 1) 0 [] c
  let indent := if given = 0 then max widest (max margin 1) else given
  let (b, c) ← blockWithin literal indent (c.rest.length + 1)
    { text := [], ending := [], breaks := breaks, padded := false } c
  let text := match head.chomping with
    | .strip => b.text
    | .clip => b.text ++ b.ending
    | .keep => b.text ++ b.ending ++ b.breaks
  return (text, c)

end Arbor.Yaml
