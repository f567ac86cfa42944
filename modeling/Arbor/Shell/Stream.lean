/-! # Streams of bytes

What programs read and write. A stream ends, or it goes on with the same bytes for ever. -/

namespace Arbor.Shell

/-- Bytes, and behind them a piece that comes again and again, if it is not empty. -/
structure Stream where
  start : List UInt8
  cycle : List UInt8
  deriving DecidableEq, Repr

/-! ### Bytes as characters -/

/-- One character for each byte. -/
def octets (bytes : List UInt8) : List Char := bytes.map fun b => Char.ofNat b.toNat

/-- The bytes of characters that stand for one each. -/
def ofOctets (cs : List Char) : List UInt8 := cs.map fun c => UInt8.ofNat c.toNat

/-- One character for each byte of a text. -/
def octetsOf (s : String) : List Char := octets s.toUTF8.toList

namespace Stream

/-- A stream that ends. -/
def ofBytes (bytes : List UInt8) : Stream := ⟨bytes, []⟩

/-- The stream of a text. -/
def ofText (s : String) : Stream := ofBytes s.toUTF8.toList

/-- The stream without bytes. -/
def empty : Stream := ofBytes []

/-- The stream never ends. -/
def isEndless (s : Stream) : Bool := !s.cycle.isEmpty

/-- A stream behind another; nothing comes behind one that never ends. -/
def append (s t : Stream) : Stream := if s.isEndless then s else ⟨s.start ++ t.start, t.cycle⟩

/-- The start of a stream with `rounds` of its cycle. -/
def unrolled (s : Stream) (rounds : Nat) : List UInt8 :=
  s.start ++ (List.replicate rounds s.cycle).flatten

/-- The first `n` bytes. -/
def take (n : Nat) (s : Stream) : List UInt8 := (s.unrolled (if s.isEndless then n else 0)).take n

/-- The byte that ends a line. -/
def newline : UInt8 := 10

/-- The first `n` lines of a list of bytes. -/
def firstLines : Nat → List UInt8 → List UInt8
  | 0, _ => []
  | _, [] => []
  | n + 1, b :: rest => b :: firstLines (if b = newline then n else n + 1) rest

/-- The first `n` lines, if they end. -/
def takeLines? (n : Nat) (s : Stream) : Option (List UInt8) :=
  if s.isEndless && !s.cycle.contains newline && n ≠ 0 then none
  else some (firstLines n (s.unrolled n))

/-- The lines of a list of bytes, without the bytes that end them. -/
def lines (bytes : List UInt8) : List (List UInt8) :=
  let pieces := bytes.splitOn newline
  if pieces.getLast? = some [] then pieces.dropLast else pieces

/-- The bytes of lines, each with its end. -/
def ofLines (lines : List (List UInt8)) : Stream := ofBytes (lines.flatMap (· ++ [newline]))

end Stream

end Arbor.Shell
