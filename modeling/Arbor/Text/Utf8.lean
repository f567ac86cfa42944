/-! # Reading bytes as text

`decode` reads bytes as UTF-8. Where the bytes are not UTF-8 it writes one replacement character for
each longest part that starts a character and goes on with wrong bytes, or for a single byte that
starts none. -/

namespace Arbor.Text

/-- The character that stands for bytes that are no text. -/
def replacement : Char := Char.ofNat 0xFFFD

/-- How a character goes on behind its first byte: the number of bytes and the range of the first
of them. All later ones lie between 0x80 and 0xBF. -/
def continuation? (lead : UInt8) : Option (Nat × UInt8 × UInt8) :=
  if lead < 0x80 then some (0, 0x80, 0xBF)
  else if lead < 0xC2 then none
  else if lead < 0xE0 then some (1, 0x80, 0xBF)
  else if lead = 0xE0 then some (2, 0xA0, 0xBF)
  else if lead = 0xED then some (2, 0x80, 0x9F)
  else if lead < 0xF0 then some (2, 0x80, 0xBF)
  else if lead = 0xF0 then some (3, 0x90, 0xBF)
  else if lead < 0xF4 then some (3, 0x80, 0xBF)
  else if lead = 0xF4 then some (3, 0x80, 0x8F)
  else none

/-- The bits that the first byte of a character adds to its code point. -/
def leadBits (lead : UInt8) : Nat :=
  if lead < 0x80 then lead.toNat
  else if lead < 0xE0 then lead.toNat % 0x20
  else if lead < 0xF0 then lead.toNat % 0x10
  else lead.toNat % 0x08

/-- Reads `n` more bytes of a character with the bits `code` so far: the character, or nothing if a
byte is wrong, and the bytes behind. -/
def readTail (n : Nat) (lo hi : UInt8) (code : Nat) (bytes : List UInt8) :
    Option Char × List UInt8 :=
  match n, bytes with
  | 0, bytes => (some (Char.ofNat code), bytes)
  | _ + 1, [] => (none, [])
  | n + 1, b :: rest =>
    if lo ≤ b && b ≤ hi then readTail n 0x80 0xBF (code * 0x40 + b.toNat % 0x40) rest
    else (none, b :: rest)

/-- No bytes are added. -/
theorem length_readTail_le (n : Nat) (lo hi : UInt8) (code : Nat) (bytes : List UInt8) :
    (readTail n lo hi code bytes).2.length ≤ bytes.length := by
  fun_induction readTail n lo hi code bytes with
  | case1 => simp
  | case2 => simp
  | case3 lo hi code n b rest _ ih => simp only [List.length_cons]; omega
  | case4 => simp

/-- **The text of a list of bytes.** -/
def decode (bytes : List UInt8) : List Char :=
  match bytes with
  | [] => []
  | b :: rest =>
    match continuation? b with
    | none => replacement :: decode rest
    | some (n, lo, hi) =>
      have := length_readTail_le n lo hi (leadBits b) rest
      let read := readTail n lo hi (leadBits b) rest
      read.1.getD replacement :: decode read.2
  termination_by bytes.length
  decreasing_by
    all_goals simp_wf
    all_goals omega

end Arbor.Text
