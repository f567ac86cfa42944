import Arbor.Text.Hex

/-! # JSON

The texts that are exchanged with a provider. A number is kept as it is written, and an object keeps
its fields in order, also those that are given twice.

* `Json.parse?` reads a whole text and refuses anything behind it.
* `Json.print` writes a value without blanks. -/

namespace Arbor.Model

/-- A value. -/
inductive Json where
  | null
  | bool (value : Bool)
  /-- A number as it is written. -/
  | number (literal : String)
  | text (value : String)
  | array (items : List Json)
  | object (fields : List (String × Json))

namespace Json

/-! ### Reading -/

/-- Blanks between tokens. -/
def isBlank (c : Char) : Bool := c == ' ' || c == '\t' || c == '\n' || c == '\r'

/-- The text without the blanks in front. -/
def skip (cs : List Char) : List Char := cs.dropWhile isBlank

/-- The character of a short escape. -/
def shortEscape? : Char → Option Char
  | '"' => some '"'
  | '\\' => some '\\'
  | '/' => some '/'
  | 'b' => some '\x08'
  | 'f' => some '\x0c'
  | 'n' => some '\n'
  | 'r' => some '\r'
  | 't' => some '\t'
  | _ => none

/-- The first half of a pair that writes one character. -/
def isHighHalf (n : Nat) : Bool := 0xD800 ≤ n && n < 0xDC00

/-- The second half of a pair. -/
def isLowHalf (n : Nat) : Bool := 0xDC00 ≤ n && n < 0xE000

/-- The character of a pair of halves. -/
def pairChar (high low : Nat) : Char :=
  Char.ofNat (0x10000 + (high - 0xD800) * 0x400 + (low - 0xDC00))

/-- The character behind `\u`, which may take two escapes, and the rest. -/
def readUnit? : List Char → Option (Char × List Char)
  | a :: b :: c :: d :: rest => do
    let n ← Text.hexNumber? [a, b, c, d]
    if isHighHalf n then
      match rest with
      | '\\' :: 'u' :: e :: f :: g :: h :: rest =>
        let low ← Text.hexNumber? [e, f, g, h]
        if isLowHalf low then some (pairChar n low, rest) else none
      | _ => none
    else if isLowHalf n then none
    else some (Char.ofNat n, rest)
  | _ => none

/-- The text up to the closing quote, and the rest. At most `fuel` characters are read. -/
def readText? : Nat → List Char → Option (List Char × List Char)
  | 0, _ => none
  | _ + 1, [] => none
  | _ + 1, '"' :: rest => some ([], rest)
  | fuel + 1, '\\' :: 'u' :: rest => do
    let (c, rest) ← readUnit? rest
    let (cs, rest) ← readText? fuel rest
    return (c :: cs, rest)
  | fuel + 1, '\\' :: e :: rest => do
    let c ← shortEscape? e
    let (cs, rest) ← readText? fuel rest
    return (c :: cs, rest)
  | fuel + 1, c :: rest => do
    if c < ' ' || c == '\\' then none
    let (cs, rest) ← readText? fuel rest
    return (c :: cs, rest)

/-- One or more digits, and the rest. -/
def readDigits? (cs : List Char) : Option (List Char × List Char) :=
  let digits := cs.takeWhile Char.isDigit
  if digits.isEmpty then none else some (digits, cs.dropWhile Char.isDigit)

/-- The whole part of a number: no zero in front of another digit. -/
def readWhole? (cs : List Char) : Option (List Char × List Char) := do
  let (digits, rest) ← readDigits? cs
  if digits.head? == some '0' && 1 < digits.length then none else some (digits, rest)

/-- The part behind a point, if there is one. -/
def readFraction? : List Char → Option (List Char × List Char)
  | '.' :: rest => do
    let (digits, rest) ← readDigits? rest
    return ('.' :: digits, rest)
  | cs => some ([], cs)

/-- The exponent, if there is one. -/
def readExponent? : List Char → Option (List Char × List Char)
  | e :: rest =>
    if e == 'e' || e == 'E' then do
      let sign := rest.takeWhile (fun c => c == '+' || c == '-') |>.take 1
      let (digits, rest) ← readDigits? (rest.drop sign.length)
      return (e :: sign ++ digits, rest)
    else some ([], e :: rest)
  | [] => some ([], [])

/-- A number, and the rest. -/
def readNumber? (cs : List Char) : Option (Json × List Char) := do
  let sign := if cs.head? == some '-' then ['-'] else []
  let (whole, rest) ← readWhole? (cs.drop sign.length)
  let (fraction, rest) ← readFraction? rest
  let (exponent, rest) ← readExponent? rest
  return (.number (String.ofList (sign ++ whole ++ fraction ++ exponent)), rest)

/-- A word that stands for a value, and the rest. -/
def readWord? (word : String) (value : Json) (cs : List Char) : Option (Json × List Char) :=
  if word.toList.isPrefixOf cs then some (value, cs.drop word.length) else none

mutual

/-- A value, and the rest. -/
def readValue? : Nat → List Char → Option (Json × List Char)
  | 0, _ => none
  | fuel + 1, cs =>
    match skip cs with
    | '"' :: rest => do
      let (cs, rest) ← readText? (rest.length + 1) rest
      return (.text (String.ofList cs), rest)
    | '[' :: rest =>
      match skip rest with
      | ']' :: rest => some (.array [], rest)
      | _ => do
        let (items, rest) ← readItems? fuel rest
        return (.array items, rest)
    | '\x7b' :: rest =>
      match skip rest with
      | '\x7d' :: rest => some (.object [], rest)
      | _ => do
        let (fields, rest) ← readFields? fuel rest
        return (.object fields, rest)
    | 'n' :: _ => readWord? "null" .null (skip cs)
    | 't' :: _ => readWord? "true" (.bool true) (skip cs)
    | 'f' :: _ => readWord? "false" (.bool false) (skip cs)
    | rest => readNumber? rest

/-- The items up to the closing bracket, and the rest. -/
def readItems? : Nat → List Char → Option (List Json × List Char)
  | 0, _ => none
  | fuel + 1, cs => do
    let (item, rest) ← readValue? fuel cs
    match skip rest with
    | ',' :: rest =>
      let (items, rest) ← readItems? fuel rest
      return (item :: items, rest)
    | ']' :: rest => return ([item], rest)
    | _ => none

/-- The fields up to the closing brace, and the rest. -/
def readFields? : Nat → List Char → Option (List (String × Json) × List Char)
  | 0, _ => none
  | fuel + 1, cs =>
    match skip cs with
    | '"' :: rest => do
      let (name, rest) ← readText? (rest.length + 1) rest
      match skip rest with
      | ':' :: rest =>
        let (value, rest) ← readValue? fuel rest
        match skip rest with
        | ',' :: rest =>
          let (fields, rest) ← readFields? fuel rest
          return ((String.ofList name, value) :: fields, rest)
        | '\x7d' :: rest => return ([(String.ofList name, value)], rest)
        | _ => none
      | _ => none
    | _ => none

end

/-- **The value of a text.** -/
def parse? (text : String) : Option Json := do
  let cs := text.toList
  let (value, rest) ← readValue? (cs.length + 1) cs
  if (skip rest).isEmpty then some value else none

/-! ### Writing -/

/-- The written form of a character inside a text. -/
def escape (c : Char) : List Char :=
  match c with
  | '"' => ['\\', '"']
  | '\\' => ['\\', '\\']
  | '\x08' => ['\\', 'b']
  | '\x0c' => ['\\', 'f']
  | '\n' => ['\\', 'n']
  | '\r' => ['\\', 'r']
  | '\t' => ['\\', 't']
  | c => if c < ' ' then '\\' :: 'u' :: Text.hexDigits 4 c.toNat else [c]

/-- The written form of a text. -/
def quote (s : String) : String := String.ofList ('"' :: s.toList.flatMap escape ++ ['"'])

mutual

/-- **The text of a value.** -/
def print : Json → String
  | .null => "null"
  | .bool b => if b then "true" else "false"
  | .number literal => literal
  | .text s => quote s
  | .array items => "[" ++ String.intercalate "," (printItems items) ++ "]"
  | .object fields => "\x7b" ++ String.intercalate "," (printFields fields) ++ "\x7d"

/-- The texts of items. -/
def printItems : List Json → List String
  | [] => []
  | item :: rest => print item :: printItems rest

/-- The texts of fields. -/
def printFields : List (String × Json) → List String
  | [] => []
  | (name, value) :: rest => (quote name ++ ":" ++ print value) :: printFields rest

end

end Json

end Arbor.Model
