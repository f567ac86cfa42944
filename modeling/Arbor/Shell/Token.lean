/-! # Words and tokens of a shell command

A command is split into words, operators and line ends. A word is a list of parts, some of which are
filled in when the command runs: parameters, the output of other commands, and sums. Quotes decide
whether a part is taken as it stands. The lines of a document that is written behind a command
become one word, which stands behind the operator that asked for them. -/

namespace Arbor.Shell

/-- A part of a word. `quoted` parts are neither split nor matched against file names. -/
inductive Part where
  | text (chars : List Char) (quoted : Bool)
  | param (name : String) (quoted : Bool)
  /-- The number of characters of a parameter. -/
  | size (name : String) (quoted : Bool)
  /-- A parameter with a word for the case that it is unset, or, with the colon, empty. -/
  | fallback (name : String) (sign : Char) (colon : Bool) (word : List Part) (quoted : Bool)
  /-- A parameter without what a pattern matches at its end or its start. -/
  | trimmed (name : String) (atEnd longest : Bool) (pattern : List Part) (quoted : Bool)
  /-- The output of a command. -/
  | output (script : List Char) (quoted : Bool)
  /-- The value of a sum. -/
  | sum (expression : List Part) (quoted : Bool)
  /-- Something between braces that is no parameter. -/
  | unknown

/-- A word. -/
abbrev Word := List Part

/-- What the characters of a word stand in. -/
inductive Quoting where
  | bare
  | quotes
  /-- The lines of a document, in which a quote stands for itself. -/
  | document
  deriving DecidableEq, Repr

/-- Parts are taken as they stand. -/
def Quoting.isQuoted (q : Quoting) : Bool := q != .bare

/-- Characters that a backslash takes as they stand. -/
def Quoting.escapes (q : Quoting) (c : Char) : Bool :=
  match q with
  | .bare => true
  | .quotes => "$`\"\\".toList.contains c
  | .document => "$`\\".toList.contains c

/-- A token. -/
inductive Token where
  | word (word : Word)
  | op (text : String)
  /-- A number directly in front of a redirection. -/
  | descriptor (n : Nat)
  | newline

/-- A token and its line. -/
structure Lexeme where
  token : Token
  line : Nat

/-- What is wrong with the form of a command, and on which line if not at the end. -/
structure SyntaxError where
  text : String
  line : Option Nat
  deriving DecidableEq, Repr

/-- What is seen to be wrong at the end. -/
def SyntaxError.atEnd (text : String) : SyntaxError := ⟨text, none⟩

namespace Token

/-- A quote without its end. -/
def openQuote : SyntaxError := .atEnd "Unterminated quoted string"

/-- A substitution without its end. -/
def openParen : SyntaxError := .atEnd "end of file unexpected (expecting \")\")"

/-- A sum without its end. -/
def openSum : SyntaxError := .atEnd "Missing '))'"

/-- A parameter without its end. -/
def openBrace : SyntaxError := .atEnd "Missing '\x7d'"

/-- A letter or underscore starts a name. -/
def startsName (c : Char) : Bool := c.isAlpha || c == '_'

/-- The characters of a name. -/
def inName (c : Char) : Bool := c.isAlphanum || c == '_'

/-- Parameters with a name of one special character. -/
def isSpecial (c : Char) : Bool := "?$#@*!-".toList.contains c || c.isDigit

/-- Characters that end a word. -/
def endsWord (c : Char) : Bool := " \t\n;&|()<>".toList.contains c

/-- The characters up to a closing single quote, and the rest. -/
def readSingle : List Char → Option (List Char × List Char)
  | [] => none
  | '\x27' :: rest => some ([], rest)
  | c :: rest => (readSingle rest).map fun r => (c :: r.1, r.2)

/-- The characters up to a closing double quote, escapes kept, and the rest. -/
def skipDouble : List Char → Option (List Char × List Char)
  | [] => none
  | '"' :: rest => some ([], rest)
  | '\\' :: c :: rest => (skipDouble rest).map fun r => ('\\' :: c :: r.1, r.2)
  | c :: rest => (skipDouble rest).map fun r => (c :: r.1, r.2)

/-- The characters up to the parenthesis that closes `depth` more, and the rest. -/
def readParen : Nat → Nat → List Char → Option (List Char × List Char)
  | 0, _, _ => none
  | _, _, [] => none
  | fuel + 1, depth, c :: rest =>
    let behind := fun (front : List Char) (depth : Nat) (rest : List Char) =>
      (readParen fuel depth rest).map fun r => (front ++ r.1, r.2)
    match c with
    | ')' => if depth = 0 then some ([], rest) else behind [c] (depth - 1) rest
    | '(' => behind [c] (depth + 1) rest
    | '\\' => behind (c :: rest.take 1) depth (rest.drop 1)
    | '\x27' => (readSingle rest).bind fun r => behind ('\x27' :: r.1 ++ ['\x27']) depth r.2
    | '"' => (skipDouble rest).bind fun r => behind ('"' :: r.1 ++ ['"']) depth r.2
    | c => behind [c] depth rest

/-- The characters of a sum up to the two parentheses that close it and `depth` more, and the
rest. -/
def readSum : Nat → List Char → Option (List Char × List Char)
  | _, [] => none
  | 0, ')' :: ')' :: rest => some ([], rest)
  | depth, c :: rest =>
    let depth := if c == '(' then depth + 1 else if c == ')' then depth - 1 else depth
    (readSum depth rest).map fun r => (c :: r.1, r.2)

/-- The characters up to a closing backquote, with its escapes undone, and the rest. -/
def readBackquote : List Char → Option (List Char × List Char)
  | [] => none
  | '\x60' :: rest => some ([], rest)
  | '\\' :: c :: rest =>
    let kept := if c == '\x60' || c == '\\' || c == '$' then [c] else ['\\', c]
    (readBackquote rest).map fun r => (kept ++ r.1, r.2)
  | c :: rest => (readBackquote rest).map fun r => (c :: r.1, r.2)

/-- What stands behind a dollar and an opening parenthesis: a sum or a command, and the rest. -/
inductive Substitution where
  | sum (expression : List Char)
  | output (script : List Char)

/-- Reads a substitution behind its opening parenthesis. -/
def readSubstitution (cs : List Char) : Except SyntaxError (Substitution × List Char) :=
  match cs with
  | '(' :: inner =>
    match readSum 0 inner with
    | some (expression, rest) => .ok (.sum expression, rest)
    | none => .error openSum
  | _ =>
    match readParen (cs.length + 1) 0 cs with
    | some (script, rest) => .ok (.output script, rest)
    | none => .error openParen

/-- The parameter at the front, without braces. -/
def readName (cs : List Char) : Option (String × List Char) :=
  match cs with
  | [] => none
  | c :: rest =>
    if startsName c then some (String.ofList (cs.takeWhile inName), cs.dropWhile inName)
    else if isSpecial c then some (String.singleton c, rest)
    else none

/-- The parameter at the front, between braces. -/
def readBracedName (cs : List Char) : Option (String × List Char) :=
  let digits := cs.takeWhile Char.isDigit
  if digits.isEmpty then readName cs else some (String.ofList digits, cs.dropWhile Char.isDigit)

mutual

/-- The part behind a dollar. A dollar that starts nothing stands for itself. -/
def readDollar : Nat → Bool → List Char → Except SyntaxError (Part × List Char)
  | 0, _, _ => .error openBrace
  | fuel + 1, quoted, cs =>
    match cs with
    | '(' :: rest => do
      match ← readSubstitution rest with
      | (.output script, rest) => return (.output script quoted, rest)
      | (.sum expression, rest) =>
        let (parts, _) ← readParts fuel .quotes (fun _ => false) expression
        return (.sum parts quoted, rest)
    | '\x7b' :: '#' :: '\x7d' :: rest => .ok (.param "#" quoted, rest)
    | '\x7b' :: '#' :: rest =>
      match readBracedName rest with
      | some (name, '\x7d' :: rest) => .ok (.size name quoted, rest)
      | _ => readUnknown fuel rest
    | '\x7b' :: rest =>
      match readBracedName rest with
      | some (name, '\x7d' :: rest) => .ok (.param name quoted, rest)
      | some (name, ':' :: sign :: rest) => readFallback fuel quoted name sign true rest
      | some (name, '%' :: rest) => readTrimmed fuel quoted name '%' rest
      | some (name, '#' :: rest) => readTrimmed fuel quoted name '#' rest
      | some (name, sign :: rest) => readFallback fuel quoted name sign false rest
      | some (_, []) => .error openBrace
      | none => readUnknown fuel rest
    | _ =>
      match readName cs with
      | some (name, rest) => .ok (.param name quoted, rest)
      | none => .ok (.text ['$'] quoted, cs)

/-- The word of a parameter that may be missing, up to the closing brace. -/
def readFallback : Nat → Bool → String → Char → Bool → List Char →
    Except SyntaxError (Part × List Char)
  | 0, _, _, _, _, _ => .error openBrace
  | fuel + 1, quoted, name, sign, colon, cs =>
    if "-+=?".toList.contains sign then do
      let (parts, rest) ← readParts fuel (if quoted then .quotes else .bare) (· == '\x7d') cs
      match rest with
      | '\x7d' :: rest => return (.fallback name sign colon parts quoted, rest)
      | _ => throw openBrace
    else readUnknown fuel (sign :: cs)

/-- What is no parameter, up to the closing brace. -/
def readUnknown : Nat → List Char → Except SyntaxError (Part × List Char)
  | 0, _ => .error openBrace
  | fuel + 1, cs => do
    let (_, rest) ← readParts fuel .bare (· == '\x7d') cs
    match rest with
    | '\x7d' :: rest => return (.unknown, rest)
    | _ => throw openBrace

/-- The pattern that is taken off a parameter, behind its first sign and up to the closing brace. -/
def readTrimmed : Nat → Bool → String → Char → List Char → Except SyntaxError (Part × List Char)
  | 0, _, _, _, _ => .error openBrace
  | fuel + 1, quoted, name, sign, cs => do
    let longest := cs.head? == some sign
    let (parts, rest) ← readParts fuel .bare (· == '\x7d') (if longest then cs.drop 1 else cs)
    match rest with
    | '\x7d' :: rest => return (.trimmed name (sign == '%') longest parts quoted, rest)
    | _ => throw openBrace

/-- The parts up to a character that ends them, which is left in the rest. -/
def readParts : Nat → Quoting → (Char → Bool) → List Char → Except SyntaxError (Word × List Char)
  | 0, _, _, cs => .ok ([], cs)
  | _, _, _, [] => .ok ([], [])
  | fuel + 1, q, stop, c :: rest =>
    if stop c then .ok ([], c :: rest)
    else
      let behind := fun (part : Word) (rest : List Char) => do
        let (parts, rest) ← readParts fuel q stop rest
        return (part ++ parts, rest)
      match c with
      | '$' => do
        let (part, rest) ← readDollar fuel q.isQuoted rest
        behind [part] rest
      | '\x60' =>
        match readBackquote rest with
        | none => .error (.atEnd "EOF in backquote substitution")
        | some (script, rest) => behind [.output script q.isQuoted] rest
      | '\\' =>
        match rest with
        | '\n' :: rest => behind [] rest
        | e :: rest => behind [.text (if q.escapes e then [e] else ['\\', e]) true] rest
        | [] => behind [.text ['\\'] true] []
      | '\x27' =>
        if q.isQuoted then behind [.text ['\x27'] true] rest
        else
          match readSingle rest with
          | none => .error openQuote
          | some (text, rest) => behind [.text text true] rest
      | '"' =>
        match q with
        | .quotes => behind [] rest
        | .document => behind [.text ['"'] true] rest
        | .bare => do
          let (parts, rest) ← readParts fuel .quotes (· == '"') rest
          match rest with
          | '"' :: rest => behind (.text [] true :: parts) rest
          | _ => .error openQuote
      | c => behind [.text [c] q.isQuoted] rest

end

/-! ### Documents -/

/-- The text of a word as it is written, without its quotes. -/
def plainText : Word → List Char
  | [] => []
  | .text cs _ :: rest => cs ++ plainText rest
  | .param name _ :: rest => '$' :: name.toList ++ plainText rest
  | _ :: rest => plainText rest

/-- A part of the word is quoted. -/
def holdsQuotes (w : Word) : Bool := w.any fun p => match p with
  | .text _ quoted => quoted
  | _ => false

/-- The lines up to the one that ends a document, and the lines behind it. -/
def cutDocument (strip : Bool) (ending : List Char) : List (List Char) →
    List (List Char) × List (List Char)
  | [] => ([], [])
  | line :: rest =>
    let line := if strip then line.dropWhile (· == '\t') else line
    if line = ending then ([], rest)
    else
      let (body, behind) := cutDocument strip ending rest
      (line :: body, behind)

/-- A document: its word, the text that is left, and the number of its lines. -/
structure Document where
  word : Word
  rest : List Char
  lines : Nat

/-- The operators, longer ones first. -/
def operators : List String :=
  ["<<-", "&&", "||", ";;", ">>", ">&", "<<", "<&", "<>", ">|", ";", "&", "|", "(", ")", "<", ">"]

/-- What stands where the end of a document has to be given. -/
def noEnding (cs : List Char) : SyntaxError :=
  match cs with
  | [] => .atEnd "end of file unexpected"
  | '\n' :: _ => .atEnd "newline unexpected"
  | c :: _ =>
    match operators.find? fun o => o.toList.isPrefixOf cs with
    | some o => .atEnd (if c == '<' || c == '>' then "redirection unexpected"
        else "\"" ++ o ++ "\" unexpected")
    | none => .atEnd "end of file unexpected"

/-- The document whose end is given behind `<<`, or behind `<<-` if leading tabs are dropped. Its
lines start behind the line that asks for it. -/
def readDocument (strip : Bool) (cs : List Char) : Except SyntaxError Document := do
  let cs := cs.dropWhile fun c => c == ' ' || c == '\t'
  let (ending, behind) ← readParts (2 * cs.length + 2) .bare endsWord cs
  if behind.length = cs.length then throw (noEnding cs)
  let here := behind.takeWhile (· != '\n')
  let below := (behind.dropWhile (· != '\n')).drop 1
  let lines := below.splitOn '\n'
  let (body, after) := cutDocument strip (plainText ending) lines
  let closed := body.length < lines.length
  let text := List.intercalate ['\n'] body ++ if closed && !body.isEmpty then ['\n'] else []
  let (content, _) ← if holdsQuotes ending then pure ([Part.text text true], [])
    else readParts (2 * text.length + 2) .document (fun _ => false) text
  let rest := if below.isEmpty && after.isEmpty then here
    else here ++ '\n' :: List.intercalate ['\n'] after
  return { word := content, rest := rest, lines := body.length + if closed then 1 else 0 }

/-- A number directly in front of a redirection, and the rest. -/
def readDescriptor (cs : List Char) : Option (Nat × List Char) :=
  let digits := cs.takeWhile Char.isDigit
  match cs.dropWhile Char.isDigit with
  | c :: rest =>
    if !digits.isEmpty && (c == '<' || c == '>') then
      some ((String.ofList digits).toNat?.getD 0, c :: rest)
    else none
  | [] => none

/-- The tokens of a text up to its end, or up to where one cannot be read, and why not. -/
structure Scan where
  tokens : List Lexeme
  fault : Option SyntaxError

/-- Nothing more is read. -/
def Scan.last (fault : Option SyntaxError) : Scan := ⟨[], fault⟩

/-- Tokens with another in front. -/
def Scan.behind (s : Scan) (t : Lexeme) : Scan := { s with tokens := t :: s.tokens }

/-- The tokens of a text that starts on a line. The lines of documents, `late` of them so far, are
counted when the line that asked for them ends. -/
def scanFrom : Nat → Nat → Nat → List Char → Scan
  | 0, _, _, _ => .last none
  | _, _, _, [] => .last none
  | fuel + 1, line, late, c :: rest =>
    if c == ' ' || c == '\t' then scanFrom fuel line late rest
    else if c == '\\' && rest.head? == some '\n' then scanFrom fuel (line + 1) late (rest.drop 1)
    else if c == '#' then scanFrom fuel line late (rest.dropWhile (· != '\n'))
    else if c == '\n' then (scanFrom fuel (line + 1 + late) 0 rest).behind ⟨.newline, line⟩
    else
      match operators.find? fun o => o.toList.isPrefixOf (c :: rest) with
      | some o =>
        let behind := (c :: rest).drop o.length
        if o = "<<" || o = "<<-" then
          match readDocument (o = "<<-") behind with
          | .ok d =>
            let after := scanFrom fuel line (late + d.lines) d.rest
            (after.behind ⟨.word d.word, line⟩).behind ⟨.op "<<", line⟩
          | .error e => .last (some e)
        else (scanFrom fuel line late behind).behind ⟨.op o, line⟩
      | none =>
        match readDescriptor (c :: rest) with
        | some (n, rest) => (scanFrom fuel line late rest).behind ⟨.descriptor n, line⟩
        | none =>
          match readParts (2 * rest.length + 2) .bare endsWord (c :: rest) with
          | .ok (parts, behind) =>
            let read := (c :: rest).take (rest.length + 1 - behind.length)
            (scanFrom fuel (line + read.count '\n') late behind).behind ⟨.word parts, line⟩
          | .error e => .last (some e)

/-- **The tokens of a text.** -/
def scan (cs : List Char) : Scan := scanFrom (cs.length + 1) 1 0 cs

end Token

end Arbor.Shell
