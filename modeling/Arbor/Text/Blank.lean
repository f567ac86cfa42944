/-! # Blank characters, trimming and sizes

A text is handled as its list of characters. The blank characters are those of the class
White_Space; trimming removes them at both ends and nothing else. Sizes are counted in UTF-8 bytes,
which is how offsets and budgets are given everywhere in this library. -/

namespace Arbor.Text

/-- The blank characters: the class White_Space. -/
def isBlank (c : Char) : Bool :=
  let n := c.toNat
  (0x09 ≤ n && n ≤ 0x0D) || n == 0x20 || n == 0x85 || n == 0xA0 || n == 0x1680 ||
    (0x2000 ≤ n && n ≤ 0x200A) || n == 0x2028 || n == 0x2029 || n == 0x202F || n == 0x205F ||
    n == 0x3000

/-- Drops the blanks in front. -/
def trimStartChars (cs : List Char) : List Char := cs.dropWhile isBlank

/-- Drops the blanks at the end. -/
def trimEndChars (cs : List Char) : List Char := (cs.reverse.dropWhile isBlank).reverse

/-- Drops the blanks at both ends. -/
def trimChars (cs : List Char) : List Char := trimEndChars (trimStartChars cs)

/-- A text without the blanks at its ends. -/
def trim (s : String) : String := String.ofList (trimChars s.toList)

/-- The number of UTF-8 bytes of a list of characters. -/
def byteCount : List Char → Nat
  | [] => 0
  | c :: cs => c.utf8Size + byteCount cs

/-- Whether a list starts the blank-delimited rest `rest`: it is empty or goes on with a blank. -/
def endsWord (rest : List Char) : Bool :=
  match rest with
  | [] => true
  | c :: _ => isBlank c

/-- The ASCII letters in upper case, every other character as it is. -/
def upperChars (cs : List Char) : List Char := cs.map Char.toUpper

/-- A text with its ASCII letters in upper case. -/
def upper (s : String) : String := String.ofList (upperChars s.toList)

/-- Whether `part` occurs in a list of characters. -/
def occursIn (part : List Char) : List Char → Bool
  | [] => part.isEmpty
  | c :: cs => part.isPrefixOf (c :: cs) || occursIn part cs

end Arbor.Text
