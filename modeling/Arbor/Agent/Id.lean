import Arbor.Text.Hex

/-! # Names of agents

An agent is known by a number of 128 bits. Its text is 32 hexadecimal digits in groups of 8, 4, 4, 4
and 12. Texts without hyphens, in braces or behind `urn:uuid:` are read as well, in any case. -/

namespace Arbor

/-- The identity of an agent. -/
structure AgentId where
  number : Nat
  deriving DecidableEq, Repr

namespace AgentId

/-- The number that a list of hexadecimal digits writes. -/
def ofDigits? (cs : List Char) : Option AgentId := (Text.hexNumber? cs).map AgentId.mk

/-- Splits a list into groups of the given lengths. -/
def groups : List Nat → List Char → List (List Char)
  | [], _ => []
  | n :: ns, cs => cs.take n :: groups ns (cs.drop n)

/-- The lengths of the hyphenated groups. -/
def groupLengths : List Nat := [8, 4, 4, 4, 12]

/-- Reads 36 characters in hyphenated groups. -/
def ofHyphenated? (cs : List Char) : Option AgentId :=
  let parts := cs.splitOn '-'
  if parts.map List.length = groupLengths then ofDigits? parts.flatten else none

/-- The start of the form that names the scheme. -/
def scheme : List Char := "urn:uuid:".toList

/-- **The agent that a text names.** -/
def ofText? (text : String) : Option AgentId :=
  let cs := text.toList
  if text.utf8ByteSize = 32 then ofDigits? cs
  else if text.utf8ByteSize = 38 && cs.head? = some '\x7b' && cs.getLast? = some '\x7d' then
    ofHyphenated? ((cs.drop 1).take 36)
  else if text.utf8ByteSize = 45 && (cs.take 9).map Char.toLower = scheme then
    ofHyphenated? (cs.drop 9)
  else ofHyphenated? cs

/-- The 32 digits of a number. -/
def digits (id : AgentId) : List Char := Text.hexDigits 32 id.number

/-- **The text of an agent's identity.** -/
def text (id : AgentId) : String :=
  String.ofList (List.intercalate ['-'] (groups groupLengths id.digits))

end AgentId

end Arbor
