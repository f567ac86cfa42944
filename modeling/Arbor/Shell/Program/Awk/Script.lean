import Arbor.Shell.Program.Awk.Token

/-! # Programs

A program is a list of rules and of functions. A rule has a pattern, which says when it is for a
record, and statements. Expressions bind as tightly as their place in the list of readers below
says: a choice least, a field most. -/

namespace Arbor.Shell.Program.Awk

/-- An operation on numbers. -/
inductive Operation where
  | add
  | subtract
  | multiply
  | divide
  | remainder
  | power
  deriving DecidableEq, Repr

/-- A comparison. -/
inductive Comparison where
  | less
  | lessOrEqual
  | equal
  | unequal
  | greater
  | greaterOrEqual
  deriving DecidableEq, Repr

mutual

/-- An expression. -/
inductive Expr where
  | number (x : Float)
  | text (cs : List Char)
  /-- An expression that is looked for in the record. -/
  | pattern (r : Regex)
  | named (name : String)
  | field (e : Expr)
  | element (array : String) (keys : List Expr)
  | contains (array : String) (keys : List Expr)
  | plus (e : Expr)
  | minus (e : Expr)
  | negation (e : Expr)
  | operation (op : Operation) (a b : Expr)
  | comparison (op : Comparison) (a b : Expr)
  | fits (negated : Bool) (a b : Expr)
  | both (a b : Expr)
  | either (a b : Expr)
  | choice (c a b : Expr)
  | join (a b : Expr)
  /-- Puts a value in a place, behind an operation on the old one if there is one. -/
  | assign (op : Option Operation) (place value : Expr)
  /-- Adds one to a place or takes one away; the value is the new or the old one. -/
  | step (op : Operation) (isNew : Bool) (place : Expr)
  | call (name : String) (args : List Expr)
  | builtin (name : String) (args : List Expr)
  /-- Reads a record, into a place if there is one. -/
  | getline (source : Source) (place : Option Expr)
  /-- Several expressions between parentheses. -/
  | tuple (es : List Expr)

/-- Where a record is read from. -/
inductive Source where
  | main
  | file (name : Expr)
  | command (line : Expr)

end

/-- Where something is written to. -/
inductive Target where
  | file (name : Expr)
  | appended (name : Expr)
  | command (line : Expr)

/-- A statement. -/
inductive Statement where
  | evaluate (e : Expr)
  | print (es : List Expr) (target : Option Target)
  | printf (es : List Expr) (target : Option Target)
  | block (body : List Statement)
  | ifElse (c : Expr) (a b : Statement)
  | loop (c : Expr) (body : Statement)
  | loopOnce (body : Statement) (c : Expr)
  | loopOver (name array : String) (body : Statement)
  /-- A loop with a start, a test and a step behind each round. -/
  | count (start : Statement) (c : Option Expr) (step body : Statement)
  | next
  | nextFile
  | exit (code : Option Expr)
  | give (value : Option Expr)
  | leave
  | again
  | delete (array : String) (keys : Option (List Expr))

/-- When a rule is for a record. -/
inductive Condition where
  | start
  | finish
  | always
  | on (e : Expr)
  /-- From a record to another one. -/
  | span (a b : Expr)

/-- A rule. -/
structure Rule where
  condition : Condition
  /-- The statements, or nothing if the record is written. -/
  body : Option (List Statement)

/-- A function. -/
structure Function where
  name : String
  parameters : List String
  body : List Statement

/-- A program. -/
structure Script where
  rules : List Rule
  functions : List Function

/-! ### Reading -/

/-- Why tokens cannot be read: one of them is not expected, of which and those behind it so many are
left, or there is something else to be said. -/
inductive Trouble where
  | unexpected (left : Nat)
  | told (fault : Fault)

/-- Reads from the front of tokens. -/
abbrev Parse := StateT (List Placed) (Except Trouble)

namespace Parse

/-- The token in front is not expected. -/
def unexpected {α : Type} : Parse α := do throw (.unexpected (← get).length)

/-- Says what is wrong on a line. -/
def told {α : Type} (line : Nat) (text : String) : Parse α :=
  throw (.told { line := line, text := text })

/-- The token in front. -/
def peek? : Parse (Option Token) := do return (← get).head?.map Placed.token

/-- The line of the token in front. -/
def line : Parse Nat := do return ((← get).head?.map Placed.line).getD 0

/-- Goes behind the token in front. -/
def advance : Parse Unit := modify (List.drop 1)

/-- The sign stands in front. -/
def isSign (s : String) : Parse Bool := do
  match ← peek? with
  | some (.sign x) => return x = s
  | _ => return false

/-- Goes behind a sign, if it stands in front. -/
def sign? (s : String) : Parse Bool := do
  if ← isSign s then
    advance
    return true
  else return false

/-- Goes behind a keyword, if it stands in front. -/
def keyword? (s : String) : Parse Bool := do
  match ← peek? with
  | some (.keyword x) =>
    if x = s then
      advance
      return true
    else return false
  | _ => return false

/-- Goes behind a sign that has to be there. -/
def expect (s : String) : Parse Unit := do
  if !(← sign? s) then unexpected

/-- Goes behind a name that has to be there. -/
def name : Parse String := do
  match ← peek? with
  | some (.name s) => do
    advance
    return s
  | _ => unexpected

/-- The tokens without the line ends in front. -/
def withoutLines (ts : List Placed) : List Placed := ts.dropWhile fun t => t.token matches .newline

/-- The tokens without the line ends and semicolons in front. -/
def withoutEnds (ts : List Placed) : List Placed :=
  ts.dropWhile fun t => t.token matches .newline | .sign ";"

/-- Goes behind the line ends in front. -/
def skipLines : Parse Unit := modify withoutLines

/-- Goes behind the line ends and semicolons in front. -/
def skipEnds : Parse Unit := modify withoutEnds

end Parse

/-- The operation of a sign that assigns. -/
def assignment? : String → Option (Option Operation)
  | "=" => some none
  | "+=" => some (some .add)
  | "-=" => some (some .subtract)
  | "*=" => some (some .multiply)
  | "/=" => some (some .divide)
  | "%=" => some (some .remainder)
  | "^=" => some (some .power)
  | _ => none

/-- The comparison of a sign. -/
def comparison? : String → Option Comparison
  | "<" => some .less
  | "<=" => some .lessOrEqual
  | "==" => some .equal
  | "!=" => some .unequal
  | ">" => some .greater
  | ">=" => some .greaterOrEqual
  | _ => none

/-- The step of a sign. -/
def step? : String → Option Operation
  | "++" => some .add
  | "--" => some .subtract
  | _ => none

/-- The operation of a sign between terms. -/
def sum? : String → Option Operation
  | "+" => some .add
  | "-" => some .subtract
  | _ => none

/-- The operation of a sign between factors. -/
def product? : String → Option Operation
  | "*" => some .multiply
  | "/" => some .divide
  | "%" => some .remainder
  | _ => none

/-- Goes behind the sign in front, if it stands for something. -/
def Parse.signFor? {α : Type} (table : String → Option α) : Parse (Option α) := do
  match ← peek? with
  | some (.sign s) =>
    match table s with
    | some a => do
      advance
      return some a
    | none => return none
  | _ => return none

/-- The expression names a place. -/
def Expr.isPlace : Expr → Bool
  | .named _ => true
  | .field _ => true
  | .element _ _ => true
  | _ => false

/-- An expression can start with the token, behind another one that it is joined to. -/
def Token.startsOperand : Token → Bool
  | .number _ => true
  | .text _ => true
  | .pattern _ => true
  | .name _ => true
  | .called _ => true
  | .builtin _ => true
  | .keyword s => s = "getline"
  | .sign s => ["$", "(", "!", "++", "--"].contains s
  | .newline => false

/-- Why an expression between slashes is none. -/
def patternFault : Regex.Fault → String
  | .unmatchedOpening => "missing ')'"
  | .nothingToRepeat => "missing operand"
  | .badBounds => "bad interval expression"
  | _ => "bad class -- [], [^] or ["

/-- The expression of a text. -/
def readRegex (cs : List Char) : Except String Regex :=
  match Regex.parse .escaped cs with
  | .ok r => .ok r
  | .error fault =>
    .error ("regular expression compile failed (" ++ patternFault fault ++ ")\n" ++
      String.ofList cs)

open Parse

/-- A text that is matched with is read as an expression at once. -/
def asPattern (here : Nat) (e : Expr) : Parse Expr := do
  match e with
  | .text cs =>
    match readRegex cs with
    | .ok r => return .pattern r
    | .error text => told here text
  | e => return e

mutual

/-- An expression; `bare` tells that a `>` ends it. -/
def readExpr (bare : Bool) : Nat → Parse Expr
  | 0 => unexpected
  | fuel + 1 => do
    let c ← readEither bare fuel
    if ← sign? "?" then
      skipLines
      let a ← readExpr bare fuel
      skipLines
      expect ":"
      skipLines
      return .choice c a (← readExpr bare fuel)
    else return c

/-- Expressions of which one has to be true. -/
def readEither (bare : Bool) : Nat → Parse Expr
  | 0 => unexpected
  | fuel + 1 => do readEitherRest bare fuel (← readBoth bare fuel)

/-- More of them. -/
def readEitherRest (bare : Bool) : Nat → Expr → Parse Expr
  | 0, a => return a
  | fuel + 1, a => do
    if ← sign? "||" then
      skipLines
      readEitherRest bare fuel (.either a (← readBoth bare fuel))
    else return a

/-- Expressions that all have to be true. -/
def readBoth (bare : Bool) : Nat → Parse Expr
  | 0 => unexpected
  | fuel + 1 => do readBothRest bare fuel (← readIn bare fuel)

/-- More of them. -/
def readBothRest (bare : Bool) : Nat → Expr → Parse Expr
  | 0, a => return a
  | fuel + 1, a => do
    if ← sign? "&&" then
      skipLines
      readBothRest bare fuel (.both a (← readIn bare fuel))
    else return a

/-- An expression that may be looked up in an array. -/
def readIn (bare : Bool) : Nat → Parse Expr
  | 0 => unexpected
  | fuel + 1 => do readInRest fuel (← readFits bare fuel)

/-- Arrays in which it is looked up. -/
def readInRest : Nat → Expr → Parse Expr
  | 0, a => return a
  | fuel + 1, a => do
    if ← keyword? "in" then
      let keys := match a with
        | .tuple es => es
        | e => [e]
      readInRest fuel (.contains (← name) keys)
    else return a

/-- A comparison that may be matched. -/
def readFits (bare : Bool) : Nat → Parse Expr
  | 0 => unexpected
  | fuel + 1 => do readFitsRest bare fuel (← readComparison bare fuel)

/-- What it is matched with. -/
def readFitsRest (bare : Bool) : Nat → Expr → Parse Expr
  | 0, a => return a
  | fuel + 1, a => do
    let negated? ← signFor? fun s => if s = "~" then some false else if s = "!~" then some true
      else none
    match negated? with
    | none => return a
    | some negated => do
      let here ← line
      let b ← readComparison bare fuel
      readFitsRest bare fuel (.fits negated a (← asPattern here b))

/-- Expressions that are compared. -/
def readComparison (bare : Bool) : Nat → Parse Expr
  | 0 => unexpected
  | fuel + 1 => do readComparisonRest bare fuel (← readJoin bare fuel)

/-- More of them. -/
def readComparisonRest (bare : Bool) : Nat → Expr → Parse Expr
  | 0, a => return a
  | fuel + 1, a => do
    match ← signFor? fun s => if bare && s = ">" then none else comparison? s with
    | some op => readComparisonRest bare fuel (.comparison op a (← readJoin bare fuel))
    | none => return a

/-- Texts one behind the other. -/
def readJoin (bare : Bool) : Nat → Parse Expr
  | 0 => unexpected
  | fuel + 1 => do readJoinRest bare fuel (← readSum bare fuel)

/-- More of them. -/
def readJoinRest (bare : Bool) : Nat → Expr → Parse Expr
  | 0, a => return a
  | fuel + 1, a => do
    if (← peek?).any Token.startsOperand then
      readJoinRest bare fuel (.join a (← readSum bare fuel))
    else return a

/-- A sum. -/
def readSum (bare : Bool) : Nat → Parse Expr
  | 0 => unexpected
  | fuel + 1 => do readSumRest bare fuel (← readProduct bare fuel)

/-- More of it. -/
def readSumRest (bare : Bool) : Nat → Expr → Parse Expr
  | 0, a => return a
  | fuel + 1, a => do
    match ← signFor? sum? with
    | some op => readSumRest bare fuel (.operation op a (← readProduct bare fuel))
    | none => return a

/-- A product. -/
def readProduct (bare : Bool) : Nat → Parse Expr
  | 0 => unexpected
  | fuel + 1 => do readProductRest bare fuel (← readSigned bare fuel)

/-- More of it. -/
def readProductRest (bare : Bool) : Nat → Expr → Parse Expr
  | 0, a => return a
  | fuel + 1, a => do
    match ← signFor? product? with
    | some op => readProductRest bare fuel (.operation op a (← readSigned bare fuel))
    | none => return a

/-- An expression with signs in front, or a power. -/
def readSigned (bare : Bool) : Nat → Parse Expr
  | 0 => unexpected
  | fuel + 1 => do
    if ← sign? "!" then return .negation (← readSigned bare fuel)
    else if ← sign? "-" then return .minus (← readSigned bare fuel)
    else if ← sign? "+" then return .plus (← readSigned bare fuel)
    else
      let a ← readStepped bare fuel
      if ← sign? "^" then return .operation .power a (← readSigned bare fuel) else return a

/-- A place with what is done to it, or another expression; and records that are read from what it
names. -/
def readStepped (bare : Bool) : Nat → Parse Expr
  | 0 => unexpected
  | fuel + 1 => do
    let e ← readPrimary bare fuel
    if !e.isPlace then readPiped fuel e
    else
      match ← signFor? step? with
      | some op => readPiped fuel (.step op false e)
      | none =>
        match ← signFor? assignment? with
        | some op => do
          skipLines
          return .assign op e (← readExpr bare fuel)
        | none => readPiped fuel e

/-- Records that are read from a command. -/
def readPiped : Nat → Expr → Parse Expr
  | 0, e => return e
  | fuel + 1, e => do
    match ← get with
    | ⟨.sign "|", _⟩ :: ⟨.keyword "getline", _⟩ :: rest => do
      set rest
      readPiped fuel (.getline (.command e) (← readPlace? fuel))
    | _ => return e

/-- A place, if one is named. -/
def readPlace? : Nat → Parse (Option Expr)
  | 0 => return none
  | fuel + 1 => do
    match ← peek? with
    | some (.name _) => return some (← readPrimary false fuel)
    | some (.sign "$") => return some (← readPrimary false fuel)
    | _ => return none

/-- An expression that nothing takes apart. -/
def readPrimary (bare : Bool) : Nat → Parse Expr
  | 0 => unexpected
  | fuel + 1 => do
    let here ← line
    match ← peek? with
    | some (.number x) => do
      advance
      return .number x
    | some (.text cs) => do
      advance
      return .text cs
    | some (.pattern cs) => do
      advance
      match readRegex cs with
      | .ok r => return .pattern r
      | .error text => told here text
    | some (.name s) => do
      advance
      if ← sign? "[" then
        let keys ← readList fuel
        expect "]"
        return .element s keys
      else return .named s
    | some (.called s) => do
      advance
      return .call s (← readArguments fuel)
    | some (.builtin s) => do
      advance
      if s = "length" && !(← isSign "(") then return .builtin s []
      else return .builtin s (← readArguments fuel)
    | some (.keyword "getline") => do
      advance
      let place ← readPlace? fuel
      if ← sign? "<" then return .getline (.file (← readPrimary bare fuel)) place
      else return .getline .main place
    | some (.sign "$") => do
      advance
      return .field (← readField bare fuel)
    | some (.sign "(") => do
      advance
      let es ← readList fuel
      skipLines
      expect ")"
      -- a place between parentheses is only a value
      match es with
      | [e] => return if e.isPlace then .tuple [e] else e
      | es => return .tuple es
    | some (.sign s) =>
      match step? s with
      | some op => do
        advance
        let e ← readPrimary bare fuel
        if e.isPlace then return .step op true e else unexpected
      | none => unexpected
    | _ => unexpected

/-- The number of a field, behind its sign. -/
def readField (bare : Bool) : Nat → Parse Expr
  | 0 => unexpected
  | fuel + 1 => do
    if ← sign? "-" then return .minus (← readField bare fuel)
    else if ← sign? "+" then readField bare fuel
    else readPrimary bare fuel

/-- Expressions between commas. -/
def readList : Nat → Parse (List Expr)
  | 0 => unexpected
  | fuel + 1 => do
    skipLines
    let e ← readExpr false fuel
    if ← sign? "," then return e :: (← readList fuel) else return [e]

/-- The arguments of a function, between their parentheses. -/
def readArguments : Nat → Parse (List Expr)
  | 0 => unexpected
  | fuel + 1 => do
    expect "("
    if ← sign? ")" then return []
    else
      let es ← readList fuel
      skipLines
      expect ")"
      return es

end

/-- Expressions between commas, up to a `>`. -/
def readPrinted : Nat → Parse (List Expr)
  | 0 => unexpected
  | fuel + 1 => do
    let e ← readExpr true fuel
    if e matches .tuple (_ :: _ :: _) then return [e]
    else if ← sign? "," then
      skipLines
      return e :: (← readPrinted fuel)
    else return [e]

/-- The token in front ends a statement, or what is printed. -/
def atEnd : Parse Bool := do
  match ← peek? with
  | some .newline => return true
  | some (.sign s) => return [";", "\x7d", ">", ">>", "|"].contains s
  | _ => return false

/-- What is printed, and where to. -/
def readPrint (fuel : Nat) : Parse (List Expr × Option Target) := do
  let es ← if ← atEnd then pure [] else readPrinted fuel
  let es := match es with
    | [.tuple es] => es
    | es => es
  if ← sign? ">" then return (es, some (.file (← readExpr true fuel)))
  else if ← sign? ">>" then return (es, some (.appended (← readExpr true fuel)))
  else if ← sign? "|" then return (es, some (.command (← readExpr true fuel)))
  else return (es, none)

/-- What is around a statement. -/
structure Surroundings where
  inFunction : Bool
  /-- The statement is for the start or the end of the input. -/
  outside : Bool
  inLoop : Bool

/-- Goes behind the end of a statement. A brace that closes a block ends one too. -/
def endStatement : Parse Unit := do
  match ← peek? with
  | some .newline => advance
  | some (.sign ";") => advance
  | some (.sign "\x7d") => return ()
  | _ => unexpected

/-- A statement without others in it. -/
def readSimple (around : Surroundings) (fuel : Nat) : Parse Statement := do
  let here ← line
  let value? : Parse (Option Expr) := do
    if ← atEnd then return none else return some (← readExpr false fuel)
  match ← peek? with
  | some (.keyword "print") => do
    advance
    let (es, target) ← readPrint fuel
    return .print es target
  | some (.keyword "printf") => do
    advance
    let (es, target) ← readPrint fuel
    if es.isEmpty then unexpected else return .printf es target
  | some (.keyword "next") => do
    advance
    if around.outside then told here "improper use of next" else return .next
  | some (.keyword "nextfile") => do
    advance
    if around.outside then told here "improper use of nextfile" else return .nextFile
  | some (.keyword "break") => do
    advance
    if around.inLoop then return .leave else told here "break statement outside of loop"
  | some (.keyword "continue") => do
    advance
    if around.inLoop then return .again else told here "continue statement outside of loop"
  | some (.keyword "exit") => do
    advance
    return .exit (← value?)
  | some (.keyword "return") => do
    advance
    if around.inFunction then return .give (← value?) else told here "return outside function body"
  | some (.keyword "delete") => do
    advance
    let array ← name
    if ← sign? "[" then
      let keys ← readList fuel
      expect "]"
      return .delete array (some keys)
    else return .delete array none
  | _ => return .evaluate (← readExpr false fuel)

/-- Goes behind an `else`, if it is the next word. -/
def else? : Parse Bool := do
  match withoutEnds (← get) with
  | ⟨.keyword "else", _⟩ :: rest => do
    set (withoutLines rest)
    return true
  | _ => return false

/-- An expression between parentheses. -/
def readTest (fuel : Nat) : Parse Expr := do
  expect "("
  let c ← readExpr false fuel
  expect ")"
  return c

mutual

/-- A statement with its end. -/
def readStatement (around : Surroundings) : Nat → Parse Statement
  | 0 => unexpected
  | fuel + 1 => do
    match ← peek? with
    | some (.sign "\x7b") => do
      advance
      return .block (← readBlock around fuel)
    | some (.sign ";") => do
      advance
      return .block []
    | some (.keyword "if") => do
      advance
      let c ← readTest fuel
      skipLines
      let a ← readStatement around fuel
      if ← else? then return .ifElse c a (← readStatement around fuel)
      else return .ifElse c a (.block [])
    | some (.keyword "while") => do
      advance
      let c ← readTest fuel
      return .loop c (← readLooped around fuel)
    | some (.keyword "do") => do
      advance
      let body ← readLooped around fuel
      skipEnds
      if ← keyword? "while" then
        let c ← readTest fuel
        endStatement
        return .loopOnce body c
      else unexpected
    | some (.keyword "for") => do
      advance
      expect "("
      match ← get with
      | ⟨.name n, _⟩ :: ⟨.keyword "in", _⟩ :: ⟨.name array, _⟩ :: ⟨.sign ")", _⟩ :: rest => do
        set rest
        return .loopOver n array (← readLooped around fuel)
      | _ => do
        let start ← if ← isSign ";" then pure (.block []) else readSimple around fuel
        expect ";"
        skipLines
        let c ← if ← isSign ";" then pure none else some <$> readExpr false fuel
        expect ";"
        skipLines
        let step ← if ← isSign ")" then pure (.block []) else readSimple around fuel
        expect ")"
        return .count start c step (← readLooped around fuel)
    | _ => do
      let s ← readSimple around fuel
      endStatement
      return s

/-- The statement of a loop. -/
def readLooped (around : Surroundings) : Nat → Parse Statement
  | 0 => unexpected
  | fuel + 1 => do
    skipLines
    readStatement { around with inLoop := true } fuel

/-- Statements up to the brace that closes them. -/
def readBlock (around : Surroundings) : Nat → Parse (List Statement)
  | 0 => unexpected
  | fuel + 1 => do
    skipEnds
    if ← sign? "\x7d" then return []
    else
      let s ← readStatement around fuel
      return s :: (← readBlock around fuel)

end

/-- The names of parameters up to the closing parenthesis. -/
def readParameters : Nat → Parse (List String)
  | 0 => unexpected
  | fuel + 1 => do
    let s ← name
    if ← sign? "," then
      skipLines
      return s :: (← readParameters fuel)
    else
      expect ")"
      return [s]

/-- A function, behind its keyword. -/
def readFunction (fuel : Nat) : Parse Function := do
  let name ← match ← peek? with
    | some (.name s) => pure s
    | some (.called s) => pure s
    | _ => unexpected
  advance
  expect "("
  let parameters ← if ← sign? ")" then pure [] else readParameters fuel
  skipLines
  expect "\x7b"
  let body ← readBlock { inFunction := true, outside := false, inLoop := false } fuel
  return { name := name, parameters := parameters, body := body }

/-- A rule. -/
def readRule (fuel : Nat) : Parse Rule := do
  let around : Surroundings := { inFunction := false, outside := false, inLoop := false }
  if ← keyword? "BEGIN" then
    expect "\x7b"
    return ⟨.start, some (← readBlock { around with outside := true } fuel)⟩
  else if ← keyword? "END" then
    expect "\x7b"
    return ⟨.finish, some (← readBlock { around with outside := true } fuel)⟩
  else if ← sign? "\x7b" then return ⟨.always, some (← readBlock around fuel)⟩
  else
    let e ← readExpr false fuel
    let condition ← if ← sign? "," then do
        skipLines
        pure (Condition.span e (← readExpr false fuel))
      else pure (Condition.on e)
    if ← sign? "\x7b" then return ⟨condition, some (← readBlock around fuel)⟩
    else
      endStatement
      return ⟨condition, none⟩

/-- The rules and functions up to the end. -/
def readRules : Nat → Script → Parse Script
  | 0, script => return script
  | fuel + 1, script => do
    skipEnds
    let here ← line
    if (← get).isEmpty then return script
    else if (← keyword? "function") || (← keyword? "func") then
      let f ← readFunction fuel
      if script.functions.any fun g => g.name = f.name then told here ("redefinition of " ++ f.name)
      else readRules fuel { script with functions := script.functions ++ [f] }
    else
      let r ← readRule fuel
      readRules fuel { script with rules := script.rules ++ [r] }

/-! ### Faults -/

/-- How many more opening than closing signs there are. -/
def openSigns (opening closing : String) (ts : List Placed) : Int :=
  ts.foldl (fun n t => match t.token with
    | .sign s => if s = opening then n + 1 else if s = closing then n - 1 else n
    | _ => n) 0

/-- What is said of a token that is not expected, of which and those behind it `left` are left. -/
def unexpectedText (ts : List Placed) (left : Nat) : String :=
  let before := ts.take (ts.length - left)
  let here := (ts[ts.length - left]?).map Placed.token
  let shown := (here.map Token.shown).getD "end of file"
  let ends := here.all fun t => t matches .newline | .sign ";" | .sign "\x7d"
  if here matches some (.sign ")") && openSigns "(" ")" before ≤ 0 then "extra ')'"
  else if here matches some (.sign "\x7d") && openSigns "\x7b" "\x7d" before ≤ 0 then "extra '\x7d'"
  else if ends && 0 < openSigns "(" ")" before then "missing ) near " ++ shown
  else if here.isNone && 0 < openSigns "\x7b" "\x7d" before then "missing \x7d near " ++ shown
  else "syntax error at or near " ++ shown

/-- The names of the functions that are called, as far as tokens tell. -/
def calledNames (ts : List Placed) : List String :=
  ts.filterMap fun t => match t.token with
    | .called s => some s
    | _ => none

/-- **The program of a text.** -/
def Script.read (cs : List Char) : Except Fault Script := do
  let cs := cs ++ ['\n']
  let ts ← tokens (cs.length + 1) 1 none cs
  let last := cs.count '\n' + 1
  match (readRules (8 * ts.length + 32) ⟨[], []⟩).run ts with
  | .ok (script, _) =>
    match (calledNames ts).find? fun n => !(script.functions.any fun f => f.name = n) with
    | some n => throw { line := last, text := "function " ++ n ++ " never defined" }
    | none => return script
  | .error (.told fault) => throw fault
  | .error (.unexpected left) =>
    let line := ((ts[ts.length - left]?).map Placed.line).getD last
    throw { line := line, text := unexpectedText ts left }

end Arbor.Shell.Program.Awk
