/-! # Lower case for comparison with ASCII words

Replies and error bodies are compared with ASCII words without regard to case. Besides the ASCII
capitals two characters have a lower case that contains an ASCII letter: the Kelvin sign and the
capital I with a dot, which becomes an i and a combining dot. Every other character has a lower case
without ASCII letters and is kept as it is, which no comparison with an ASCII word can notice. -/

namespace Arbor.Text

/-- The lower case of a character, as far as ASCII words are concerned. -/
def lowerChar (c : Char) : List Char :=
  if c.toNat = 0x212A then ['k']
  else if c.toNat = 0x130 then ['i', Char.ofNat 0x307]
  else [c.toLower]

/-- The lower case of a text, as far as ASCII words are concerned. -/
def lowerChars (cs : List Char) : List Char := cs.flatMap lowerChar

end Arbor.Text
