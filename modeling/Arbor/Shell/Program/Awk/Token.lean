import Arbor.Shell.Decimal
import Arbor.Shell.Regex

/-! # Tokens

The words and signs of a program text. A slash starts an expression unless something stands in front
of it that can be divided. Each character stands for a byte. -/

namespace Arbor.Shell.Program.Awk

/-- A token. -/
inductive Token where
  | number (x : Float)
  | text (cs : List Char)
  /-- An expression between slashes. -/
  | pattern (cs : List Char)
  | name (s : String)
  /-- A name with an opening parenthesis directly behind it. -/
  | called (s : String)
  /-- A function that is always there. -/
  | builtin (s : String)
  | keyword (s : String)
  | sign (s : String)
  | newline

/-- A token with the line on which it stands. -/
structure Placed where
  token : Token
  line : Nat

/-- Why a text cannot be read, and the line on which that is seen. -/
structure Fault where
  line : Nat
  text : String
  /-- The line is told in short. -/
  short : Bool := false

/-- The words that have a meaning of their own. -/
def keywords : List String :=
  ["BEGIN", "END", "break", "continue", "delete", "do", "else", "exit", "for", "func", "function",
    "getline", "if", "in", "next", "nextfile", "print", "printf", "return", "while"]

/-- The functions that are always there. -/
def builtins : List String :=
  ["atan2", "close", "cos", "exp", "fflush", "gsub", "index", "int", "length", "log",
    "match", "rand",
    "sin", "split", "sprintf", "sqrt", "srand", "sub", "substr", "system", "tolower", "toupper"]

/-- The signs, longer ones in front of those that they start with. -/
def signs : List String :=
  ["&&", "||", "++", "--", "+=", "-=", "*=", "/=", "%=", "^=", "==", "<=", ">=", "!=", "!~", ">>",
    "\x7b", "\x7d", "(", ")", "[", "]", ";", ",", "+", "-", "*", "/", "%", "^", "!", ">", "<", "|",
    "?", ":", "~", "$", "="]

/-- A token as a message shows it. -/
def Token.shown : Token → String
  | .number x => toString x
  | .text cs => "\"" ++ String.ofList cs ++ "\""
  | .pattern cs => "/" ++ String.ofList cs ++ "/"
  | .name s => s
  | .called s => s
  | .builtin s => s
  | .keyword s => s
  | .sign s => s
  | .newline => "end of line"

/-- What stands behind the token is divided by a slash. -/
def Token.isOperand : Token → Bool
  | .number _ => true
  | .text _ => true
  | .name _ => true
  | .builtin s => s = "length"
  | .sign s => [")", "]", "++", "--"].contains s
  | _ => false

/-- The text up to the closing quote, with its escapes, and the rest. A backslash in front of a
character that it does not escape stays. -/
def readText : Nat → List Char → Option (List Char × List Char)
  | 0, _ => none
  | _ + 1, [] => none
  | _ + 1, '\n' :: _ => none
  | _ + 1, '"' :: rest => some ([], rest)
  | fuel + 1, '\\' :: '\n' :: rest => readText fuel rest
  | fuel + 1, '\\' :: c :: rest =>
    if "\"\\abfnrtv01234567".toList.contains c then
      let (x, rest) := Regex.readEscape (c :: rest)
      (readText fuel rest).map fun r => (x :: r.1, r.2)
    else (readText fuel rest).map fun r => ('\\' :: c :: r.1, r.2)
  | fuel + 1, c :: rest => (readText fuel rest).map fun r => (c :: r.1, r.2)

/-- A text with its escapes, to its end. -/
def unescaped : Nat → List Char → List Char
  | 0, cs => cs
  | _ + 1, [] => []
  | fuel + 1, '\\' :: c :: rest =>
    if "\"\\abfnrtv01234567".toList.contains c then
      let (x, rest) := Regex.readEscape (c :: rest)
      x :: unescaped fuel rest
    else '\\' :: c :: unescaped fuel rest
  | fuel + 1, c :: rest => c :: unescaped fuel rest

/-- The expression up to the closing slash, and the rest. A slash between brackets or behind a
backslash does not close it. -/
def readPattern : Bool → List Char → Option (List Char × List Char)
  | _, [] => none
  | _, '\n' :: _ => none
  | inSet, '\\' :: '/' :: rest => (readPattern inSet rest).map fun r => ('/' :: r.1, r.2)
  | inSet, '\\' :: c :: rest => (readPattern inSet rest).map fun r => ('\\' :: c :: r.1, r.2)
  | false, '/' :: rest => some ([], rest)
  | false, '[' :: '^' :: ']' :: rest =>
    (readPattern true rest).map fun r => ('[' :: '^' :: ']' :: r.1, r.2)
  | false, '[' :: ']' :: rest => (readPattern true rest).map fun r => ('[' :: ']' :: r.1, r.2)
  | false, '[' :: rest => (readPattern true rest).map fun r => ('[' :: r.1, r.2)
  | true, ']' :: rest => (readPattern false rest).map fun r => (']' :: r.1, r.2)
  | inSet, c :: rest => (readPattern inSet rest).map fun r => (c :: r.1, r.2)

/-- The character starts a name. -/
def startsName (c : Char) : Bool := c.isAlpha || c == '_'

/-- The token of a word. -/
def wordToken (word : String) (rest : List Char) : Token :=
  if keywords.contains word then .keyword word
  else if builtins.contains word then .builtin word
  else if rest.head? = some '(' then .called word
  else .name word

/-- The first line of a text, as a message about something that does not end shows it. -/
def excerpt (cs : List Char) : String :=
  String.ofList ((cs.takeWhile (· != '\n')).take 20) ++ " ..."

/-- **The tokens of a program text** from a line on; `last` is the token in front of it. -/
def tokens : Nat → Nat → Option Token → List Char → Except Fault (List Placed)
  | 0, _, _, _ => .ok []
  | _ + 1, _, _, [] => .ok []
  | fuel + 1, line, last, c :: rest =>
    let go := fun (t : Token) (rest : List Char) =>
      (tokens fuel line (some t) rest).map fun more => ⟨t, line⟩ :: more
    if c == '\n' then (tokens fuel (line + 1) (some .newline) rest).map (⟨.newline, line⟩ :: ·)
    else if c == '\\' && rest.head? = some '\n' then tokens fuel (line + 1) last (rest.drop 1)
    else if c == ' ' || c == '\t' || c == '\r' then tokens fuel line last rest
    else if c == '#' then tokens fuel line last (rest.dropWhile (· != '\n'))
    else if c == '"' then
      match readText (rest.length + 1) rest with
      | some (cs, rest) => go (.text cs) rest
      | none => .error { line := line, text := "runaway string constant \"" ++ excerpt rest }
    else if c == '/' && !(last.any Token.isOperand) then
      match readPattern false rest with
      | some (cs, rest) => go (.pattern cs) rest
      | none => .error { line := line, text := "runaway regular expression /" ++ excerpt rest }
    else if c.isDigit || (c == '.' && rest.head?.any Char.isDigit) then
      match Decimal.read? (c :: rest) with
      | some (d, rest) => go (.number d.toFloat) rest
      | none => tokens fuel line last rest
    else if startsName c then
      let word := (c :: rest).takeWhile fun c => startsName c || c.isDigit
      let rest := (c :: rest).drop word.length
      go (wordToken (String.ofList word) rest) rest
    else
      match signs.find? fun s => s.toList.isPrefixOf (c :: rest) with
      | some s => go (.sign s) ((c :: rest).drop s.length)
      | none =>
        let text := "unexpected character '" ++ c.toString ++ "'"
        .error { line := line, text := text, short := true }

end Arbor.Shell.Program.Awk
