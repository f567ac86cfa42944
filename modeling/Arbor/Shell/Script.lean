import Arbor.Shell.Token

/-! # The grammar of shell commands

Commands are joined to pipelines, pipelines by `&&` and `||`, and those by `;`, `&` and line ends.
`Script.parse` reads a whole text; what is wrong with its form is told in words. -/

namespace Arbor.Shell

/-- Where a redirection leads. -/
inductive RedirectKind where
  | input
  /-- From the lines of a document. -/
  | document
  | output
  | append
  /-- To where another descriptor leads. -/
  | duplicate
  deriving DecidableEq, Repr

/-- A redirection of a descriptor. -/
structure Redirect where
  descriptor : Nat
  kind : RedirectKind
  target : Word

/-- A command. -/
inductive Script where
  | nothing
  /-- A program with its words, on a line. -/
  | simple (line : Nat) (settings : List (String × Word)) (words : List Word)
      (redirects : List Redirect)
  | pipeline (negated : Bool) (stages : List Script)
  /-- The second if the first succeeds. -/
  | both (first second : Script)
  /-- The second if the first fails. -/
  | either (first second : Script)
  | sequence (first second : Script)
  | background (body : Script)
  | subshell (body : Script)
  | redirected (body : Script) (redirects : List Redirect)
  | choose (condition yes no : Script)
  /-- The body as long as the condition succeeds, or fails. -/
  | loop (succeeds : Bool) (condition body : Script)
  | each (name : String) (words : List Word) (body : Script)
  /-- A function of a name. -/
  | define (name : String) (body : Script)
  | select (word : Word) (branches : List (List Word × Script))

namespace Script

/-- The tokens that are left. -/
abbrev Rest := List Lexeme

/-- A reader of tokens. -/
abbrev Reader (α : Type) := Rest → Except SyntaxError (α × Rest)

/-- The text of a word that is written without quotes and parameters. -/
def bareText? : Word → Option String
  | [] => some ""
  | .text cs false :: rest => (bareText? rest).map (String.ofList cs ++ ·)
  | _ => none

/-- The words that the grammar is made of. -/
def keywords : List String :=
  ["if", "then", "else", "elif", "fi", "do", "done", "case", "esac", "for", "while", "until", "in",
    "\x7b", "\x7d", "!"]

/-- The kind of a redirection and the descriptor that it is about by default. -/
def redirectKind? : String → Option (RedirectKind × Nat)
  | "<" => some (.input, 0)
  | "<<" => some (.document, 0)
  | ">" => some (.output, 1)
  | ">|" => some (.output, 1)
  | ">>" => some (.append, 1)
  | ">&" => some (.duplicate, 1)
  | "<&" => some (.duplicate, 0)
  | _ => none

/-- How a token is named in a message. -/
def nameOf : Token → String
  | .word w =>
    match (bareText? w).filter keywords.contains with
    | some s => "\"" ++ s ++ "\""
    | none => "word"
  | .op o => if (redirectKind? o).isSome then "redirection" else "\"" ++ o ++ "\""
  | .descriptor _ => "redirection"
  | .newline => "newline"

/-- A token that does not fit. -/
def unexpected : Rest → SyntaxError
  | [] => .atEnd "end of file unexpected"
  | t :: _ =>
    let line := if t.token matches .newline then t.line + 1 else t.line
    ⟨nameOf t.token ++ " unexpected", some line⟩

/-- A token that does not fit where another has to come. -/
def expecting (what : String) (ts : Rest) : SyntaxError :=
  let e := unexpected ts
  { e with text := e.text ++ " (expecting " ++ what ++ ")" }

/-- The bare word at the front. -/
def frontWord? : Rest → Option String
  | ⟨.word w, _⟩ :: _ => bareText? w
  | _ => none

/-- An operator is at the front. -/
def atOp (o : String) : Rest → Bool
  | ⟨.op p, _⟩ :: _ => o = p
  | _ => false

/-- The tokens without line ends in front. -/
def skipLines (ts : Rest) : Rest := ts.dropWhile fun t => t.token matches .newline

/-- Words that end a list of commands. -/
def closers : List String := ["then", "else", "elif", "fi", "do", "done", "esac", "\x7d"]

/-- Drops a word that has to come. -/
def expectWord (word : String) (ts : Rest) : Except SyntaxError Rest :=
  let ts := skipLines ts
  if frontWord? ts = some word then .ok (ts.drop 1)
  else .error (expecting ("\"" ++ word ++ "\"") ts)

/-- Drops an operator that has to come. -/
def expectOp (o : String) (ts : Rest) : Except SyntaxError Rest :=
  if atOp o ts then .ok (ts.drop 1) else .error (expecting ("\"" ++ o ++ "\"") ts)

/-- A redirection at the front, if there is one. -/
def readRedirect (ts : Rest) : Except SyntaxError (Option Redirect × Rest) :=
  let (given, behind) := match ts with
    | ⟨.descriptor n, _⟩ :: rest => (some n, rest)
    | ts => (none, ts)
  match behind with
  | ⟨.op o, _⟩ :: rest =>
    match redirectKind? o with
    | none => .ok (none, ts)
    | some (kind, default) =>
      match rest with
      | ⟨.word w, _⟩ :: rest => .ok (some ⟨given.getD default, kind, w⟩, rest)
      | rest => .error (unexpected rest)
  | _ => .ok (none, ts)

/-- The redirections behind a command. -/
def readRedirects : Nat → Reader (List Redirect)
  | 0, ts => .ok ([], ts)
  | fuel + 1, ts => do
    match ← readRedirect ts with
    | (none, ts) => return ([], ts)
    | (some r, ts) =>
      let (rs, ts) ← readRedirects fuel ts
      return (r :: rs, ts)

/-- The start of a word that is written without quotes and parameters, and the rest of the word. -/
def bareStart : Word → List Char × Word
  | .text cs false :: rest =>
    let (more, behind) := bareStart rest
    (cs ++ more, behind)
  | w => ([], w)

/-- A word of the form `name=value`. -/
def setting? (w : Word) : Option (String × Word) :=
  let (front, behind) := bareStart w
  let name := front.takeWhile (· != '=')
  match name, front.dropWhile (· != '=') with
  | c :: _, '=' :: value =>
    if Token.startsName c && name.all Token.inName then
      some (String.ofList name, .text value false :: behind)
    else none
  | _, _ => none

/-- The words, settings and redirections of a simple command. -/
def readSimple (line : Nat) : Nat → List (String × Word) → List Word → List Redirect → Reader Script
  | 0, ss, ws, rs, ts => .ok (.simple line ss ws rs, ts)
  | fuel + 1, ss, ws, rs, ts => do
    match ← readRedirect ts with
    | (some r, ts) => readSimple line fuel ss ws (rs ++ [r]) ts
    | (none, ⟨.word w, _⟩ :: rest) =>
      match if ws.isEmpty then setting? w else none with
      | some s => readSimple line fuel (ss ++ [s]) ws rs rest
      | none => readSimple line fuel ss (ws ++ [w]) rs rest
    | (none, ts) =>
      if ss.isEmpty && ws.isEmpty && rs.isEmpty then throw (unexpected ts)
      else if atOp "(" ts then throw (unexpected ts)
      else return (.simple line ss ws rs, ts)

/-- The words up to the end of a line or a semicolon. -/
def readWords : Rest → List Word × Rest
  | ⟨.word w, _⟩ :: rest =>
    let (ws, rest) := readWords rest
    (w :: ws, rest)
  | ts => ([], ts)

/-- The patterns of a branch, between bars. -/
def readPatterns : Nat → Reader (List Word)
  | 0, ts => .error (unexpected ts)
  | fuel + 1, ts =>
    match ts with
    | ⟨.word w, _⟩ :: rest =>
      if atOp "|" rest then do
        let (ws, rest) ← readPatterns fuel (rest.drop 1)
        return (w :: ws, rest)
      else .ok ([w], rest)
    | ts => .error (unexpected ts)

/-- A command, with the redirections behind it. -/
def withRedirects (body : Script) (ts : Rest) : Except SyntaxError (Script × Rest) := do
  let (rs, ts) ← readRedirects (ts.length + 1) ts
  return (if rs.isEmpty then body else .redirected body rs, ts)

/-- The list of commands ends here. -/
def atClose (ts : Rest) : Bool :=
  ts.isEmpty || atOp ")" ts || atOp ";;" ts || (frontWord? ts).any closers.contains

/-- The name of a function whose definition is at the front, and the tokens of its body. -/
def readHeader (ts : Rest) : Except SyntaxError (Option (String × Rest)) :=
  match ts with
  | ⟨.word w, line⟩ :: ⟨.op "(", _⟩ :: rest =>
    if (setting? w).isSome then .ok none
    else
      match rest with
      | ⟨.op ")", _⟩ :: rest =>
        match (bareText? w).filter fun n =>
            n.toList.head?.any Token.startsName && n.toList.all Token.inName with
        | some name => .ok (some (name, skipLines rest))
        | none => .error ⟨"Bad function name", some line⟩
      | ⟨.word _, line⟩ :: _ => .error ⟨"word unexpected (expecting \")\")", some line⟩
      | rest => .error (expecting "\")\"" rest)
  | _ => .ok none

mutual

/-- Commands up to what closes them; at least one has to come. -/
def readBlock : Nat → Reader Script
  | 0, ts => .error (unexpected ts)
  | fuel + 1, ts =>
    let ts := skipLines ts
    if !ts.isEmpty && atClose ts then .error (unexpected ts) else readList fuel ts

/-- Commands up to a word or an operator that closes them. -/
def readList : Nat → Reader Script
  | 0, ts => .error (unexpected ts)
  | fuel + 1, ts =>
    let ts := skipLines ts
    if atClose ts then .ok (.nothing, ts)
    else do
      let (first, ts) ← readChain fuel ts
      match ts with
      | ⟨.op ";", _⟩ :: rest =>
        let (second, rest) ← readList fuel rest
        return (.sequence first second, rest)
      | ⟨.op "&", _⟩ :: rest =>
        let (second, rest) ← readList fuel rest
        return (.sequence (.background first) second, rest)
      | ⟨.newline, _⟩ :: rest =>
        let (second, rest) ← readList fuel rest
        return (.sequence first second, rest)
      | ts => return (first, ts)

/-- Pipelines joined by `&&` and `||`. -/
def readChain : Nat → Reader Script
  | 0, ts => .error (unexpected ts)
  | fuel + 1, ts => do
    let (first, ts) ← readPipeline fuel ts
    readLinks fuel first ts

/-- The pipelines that are joined to a first one. -/
def readLinks : Nat → Script → Reader Script
  | 0, first, ts => .ok (first, ts)
  | fuel + 1, first, ts =>
    match ts with
    | ⟨.op "&&", _⟩ :: rest => do
      let (second, rest) ← readPipeline fuel (skipLines rest)
      readLinks fuel (.both first second) rest
    | ⟨.op "||", _⟩ :: rest => do
      let (second, rest) ← readPipeline fuel (skipLines rest)
      readLinks fuel (.either first second) rest
    | ts => .ok (first, ts)

/-- Commands joined by bars. -/
def readPipeline : Nat → Reader Script
  | 0, ts => .error (unexpected ts)
  | fuel + 1, ts => do
    let negated := frontWord? ts == some "!"
    let (stages, ts) ← readStages fuel (if negated then ts.drop 1 else ts)
    match negated, stages with
    | false, [stage] => return (stage, ts)
    | _, _ => return (.pipeline negated stages, ts)

/-- The stages of a pipeline. -/
def readStages : Nat → Reader (List Script)
  | 0, ts => .error (unexpected ts)
  | fuel + 1, ts => do
    let (stage, ts) ← readCommand fuel ts
    if atOp "|" ts then
      let (stages, ts) ← readStages fuel (skipLines (ts.drop 1))
      return (stage :: stages, ts)
    else return ([stage], ts)

/-- One command. -/
def readCommand : Nat → Reader Script
  | 0, ts => .error (unexpected ts)
  | fuel + 1, ts =>
    if atOp "(" ts then do
      let (body, ts) ← readBlock fuel (ts.drop 1)
      withRedirects (.subshell body) (← expectOp ")" ts)
    else
      match frontWord? ts with
      | some "\x7b" => do
        let (body, ts) ← readBlock fuel (ts.drop 1)
        withRedirects body (← expectWord "\x7d" ts)
      | some "if" => do
        let (body, ts) ← readIf fuel (ts.drop 1)
        withRedirects body ts
      | some "while" => do
        let (body, ts) ← readLoop fuel true (ts.drop 1)
        withRedirects body ts
      | some "until" => do
        let (body, ts) ← readLoop fuel false (ts.drop 1)
        withRedirects body ts
      | some "for" => do
        let (body, ts) ← readFor fuel (ts.drop 1)
        withRedirects body ts
      | some "case" => do
        let (body, ts) ← readCase fuel (ts.drop 1)
        withRedirects body ts
      | front =>
        if front.any fun w => closers.contains w || w = "!" || w = "in" then .error (unexpected ts)
        else do
          match ← readHeader ts with
          | some (name, rest) => do
            if rest.isEmpty then throw (unexpected rest)
            let (body, rest) ← readCommand fuel rest
            return (.define name body, rest)
          | none => readSimple ((ts.head?.map Lexeme.line).getD 1) (ts.length + 1) [] [] [] ts

/-- A choice behind its first word. -/
def readIf : Nat → Reader Script
  | 0, ts => .error (unexpected ts)
  | fuel + 1, ts => do
    let (condition, ts) ← readBlock fuel ts
    let ts ← expectWord "then" ts
    let (yes, ts) ← readBlock fuel ts
    match frontWord? ts with
    | some "elif" =>
      let (no, ts) ← readIf fuel (ts.drop 1)
      return (.choose condition yes no, ts)
    | some "else" =>
      let (no, ts) ← readBlock fuel (ts.drop 1)
      return (.choose condition yes no, ← expectWord "fi" ts)
    | _ => return (.choose condition yes .nothing, ← expectWord "fi" ts)

/-- A loop behind its first word. -/
def readLoop : Nat → Bool → Reader Script
  | 0, _, ts => .error (unexpected ts)
  | fuel + 1, succeeds, ts => do
    let (condition, ts) ← readBlock fuel ts
    let ts ← expectWord "do" ts
    let (body, ts) ← readBlock fuel ts
    return (.loop succeeds condition body, ← expectWord "done" ts)

/-- A loop over words behind its first word. -/
def readFor : Nat → Reader Script
  | 0, ts => .error (unexpected ts)
  | fuel + 1, ts => do
    let some name := (frontWord? ts).filter fun n => n.toList.head?.any Token.startsName
      | throw ⟨"Bad for loop variable", ts.head?.map Lexeme.line⟩
    let ts := skipLines (ts.drop 1)
    let listed := frontWord? ts = some "in"
    let (words, ts) := if listed then readWords (ts.drop 1) else ([[.param "@" true]], ts)
    if listed && ts.isEmpty then throw (unexpected ts)
    let ts := skipLines (if atOp ";" ts then ts.drop 1 else ts)
    let ts ← expectWord "do" ts
    let (body, ts) ← readBlock fuel ts
    return (.each name words body, ← expectWord "done" ts)

/-- A choice by patterns behind its first word. -/
def readCase : Nat → Reader Script
  | 0, ts => .error (unexpected ts)
  | fuel + 1, ts =>
    match ts with
    | ⟨.word w, _⟩ :: rest => do
      let ts ← expectWord "in" rest
      let (branches, ts) ← readBranches fuel (skipLines ts)
      return (.select w branches, ← expectWord "esac" ts)
    | ts => .error (expecting "word" ts)

/-- The branches of a choice by patterns. -/
def readBranches : Nat → Reader (List (List Word × Script))
  | 0, ts => .error (unexpected ts)
  | fuel + 1, ts =>
    if frontWord? ts = some "esac" then .ok ([], ts)
    else if ts.isEmpty then .error (expecting "\")\"" ts)
    else if atOp ";;" ts then .error ⟨"word unexpected (expecting \")\")", ts.head?.map Lexeme.line⟩
    else do
      let (patterns, ts) ← readPatterns fuel (if atOp "(" ts then ts.drop 1 else ts)
      let ts ← expectOp ")" ts
      let (body, ts) ← readList fuel ts
      if atOp ";;" ts then
        let (branches, ts) ← readBranches fuel (skipLines (ts.drop 1))
        return ((patterns, body) :: branches, ts)
      else return ([(patterns, body)], ts)

end

/-- **The command of a text.** A token that does not fit is told of before one that cannot be read
behind it. -/
def parse (cs : List Char) : Except SyntaxError Script :=
  let scan := Token.scan cs
  match readList (8 * scan.tokens.length + 8) scan.tokens, scan.fault with
  | .ok (script, []), none => .ok script
  | .ok (_, []), some fault => .error fault
  | .ok (_, rest), _ => .error (unexpected rest)
  | .error e, some fault => .error (if e.line.isNone then fault else e)
  | .error e, none => .error e

end Script

end Arbor.Shell
