import Arbor.Table
import Arbor.Text.Hex

/-! # Whole numbers in a shell

Expressions over numbers of 64 bits, which wrap. A comparison has the value 1 or 0, and a variable
that is unset or empty the value 0. An assignment has the value that it assigns. -/

namespace Arbor.Shell

/-- An operation on two numbers. -/
inductive Operation where
  | add
  | sub
  | mul
  | div
  | mod
  | shiftLeft
  | shiftRight
  | bitAnd
  | bitXor
  | bitOr
  | less
  | atMost
  | greater
  | atLeast
  | equal
  | unequal
  deriving DecidableEq, Repr

/-- An expression. -/
inductive Arithmetic where
  | number (n : Int)
  | parameter (name : String)
  | negate (a : Arithmetic)
  | complement (a : Arithmetic)
  /-- One for zero, and zero for all else. -/
  | isZero (a : Arithmetic)
  | apply (op : Operation) (a b : Arithmetic)
  | both (a b : Arithmetic)
  | either (a b : Arithmetic)
  | choose (condition yes no : Arithmetic)
  /-- Sets a variable, or changes it by an operation. -/
  | assign (name : String) (op : Option Operation) (a : Arithmetic)

/-- Why an expression has no value. -/
inductive ArithmeticError where
  | noOperand
  | noParenthesis
  | noColon
  /-- Something is left behind the expression. -/
  | trailing
  | zeroDivision
  /-- The value of a variable is no number. -/
  | noNumber (text : String)
  deriving DecidableEq, Repr

/-- The wording of an error in an expression. -/
def ArithmeticError.message (expression : String) : ArithmeticError → String
  | .noOperand => "arithmetic expression: expecting primary: \"" ++ expression ++ "\""
  | .noParenthesis => "arithmetic expression: expecting ')': \"" ++ expression ++ "\""
  | .noColon => "arithmetic expression: expecting ':': \"" ++ expression ++ "\""
  | .trailing => "arithmetic expression: expecting EOF: \"" ++ expression ++ "\""
  | .zeroDivision => "arithmetic expression: division by zero: \"" ++ expression ++ "\""
  | .noNumber text => "Illegal number: " ++ text

namespace Arithmetic

/-! ### Reading -/

/-- The text without blanks in front. -/
def skip (cs : List Char) : List Char := cs.dropWhile fun c => c == ' ' || c == '\t' || c == '\n'

/-- The signs of the language, longer ones first. -/
def signs : List String :=
  ["<<=", ">>=", "||", "&&", "==", "!=", "<=", ">=", "<<", ">>", "+=", "-=", "*=", "/=", "%=", "&=",
    "|=", "^=", "|", "^", "&", "<", ">", "+", "-", "*", "/", "%", "=", "?", ":", "!", "~", "(", ")"]

/-- The sign at the front and what stands behind it. -/
def frontSign? (cs : List Char) : Option (String × List Char) :=
  (signs.find? fun o => o.toList.isPrefixOf (skip cs)).map fun o => (o, (skip cs).drop o.length)

/-- The operations by how tightly they bind, the loosest first. -/
def levels : List (List (String × (Arithmetic → Arithmetic → Arithmetic))) :=
  [[("||", .either)], [("&&", .both)], [("|", .apply .bitOr)], [("^", .apply .bitXor)],
    [("&", .apply .bitAnd)], [("==", .apply .equal), ("!=", .apply .unequal)],
    [("<=", .apply .atMost), (">=", .apply .atLeast), ("<", .apply .less), (">", .apply .greater)],
    [("<<", .apply .shiftLeft), (">>", .apply .shiftRight)],
    [("+", .apply .add), ("-", .apply .sub)],
    [("*", .apply .mul), ("/", .apply .div), ("%", .apply .mod)]]

/-- The signs that assign, with the operation that they apply. -/
def assignments : List (String × Option Operation) :=
  [("=", none), ("+=", some .add), ("-=", some .sub), ("*=", some .mul), ("/=", some .div),
    ("%=", some .mod), ("<<=", some .shiftLeft), (">>=", some .shiftRight), ("&=", some .bitAnd),
    ("|=", some .bitOr), ("^=", some .bitXor)]

/-- The number at the front, decimal, octal behind a zero or hexadecimal behind `0x`. -/
def readNumber (cs : List Char) : Nat × List Char :=
  let octal := fun (c : Char) => '0' ≤ c && c ≤ '7'
  match cs with
  | '0' :: 'x' :: rest =>
    let digits := rest.takeWhile fun c => (Text.hexNumber? [c]).isSome
    if digits.isEmpty then (0, 'x' :: rest)
    else ((Text.hexNumber? digits).getD 0, rest.drop digits.length)
  | '0' :: rest =>
    ((rest.takeWhile octal).foldl (fun n c => 8 * n + (c.toNat - '0'.toNat)) 0,
      rest.dropWhile octal)
  | cs => (((String.ofList (cs.takeWhile Char.isDigit)).toNat?).getD 0, cs.dropWhile Char.isDigit)

/-- The name at the front. -/
def readName? (cs : List Char) : Option (String × List Char) :=
  let inName := fun (c : Char) => c.isAlphanum || c == '_'
  if cs.head?.any fun c => c.isAlpha || c == '_' then
    some (String.ofList (cs.takeWhile inName), cs.dropWhile inName)
  else none

/-- The assignment at the front: its name, its operation and what stands behind its sign. -/
def readTarget? (cs : List Char) : Option (String × Option Operation × List Char) := do
  let (name, rest) ← readName? (skip cs)
  let (sign, rest) ← frontSign? rest
  return (name, ← assignments.lookup sign, rest)

/-- A reader of expressions. -/
abbrev Reader := List Char → Except ArithmeticError (Arithmetic × List Char)

mutual

/-- An expression. -/
def readWhole : Nat → Reader
  | 0, _ => .error .noOperand
  | fuel + 1, cs =>
    match readTarget? cs with
    | some (name, op, rest) => do
      let (value, rest) ← readWhole fuel rest
      return (.assign name op value, rest)
    | none => readChoice fuel cs

/-- An expression without an assignment at its front. -/
def readChoice : Nat → Reader
  | 0, _ => .error .noOperand
  | fuel + 1, cs => do
    let (first, rest) ← readLevel fuel levels cs
    match frontSign? rest with
    | some ("?", rest) =>
      let (yes, rest) ← readWhole fuel rest
      match frontSign? rest with
      | some (":", rest) =>
        let (no, rest) ← readChoice fuel rest
        return (.choose first yes no, rest)
      | _ => throw .noColon
    | _ => return (first, rest)

/-- The operations from a level on. -/
def readLevel : Nat → List (List (String × (Arithmetic → Arithmetic → Arithmetic))) → Reader
  | 0, _, _ => .error .noOperand
  | fuel + 1, [], cs => readOperand fuel (skip cs)
  | fuel + 1, ops :: tighter, cs => do
    let (first, rest) ← readLevel fuel tighter cs
    readMore fuel ops tighter first rest

/-- The operations of one level behind a first operand. -/
def readMore : Nat → List (String × (Arithmetic → Arithmetic → Arithmetic)) →
    List (List (String × (Arithmetic → Arithmetic → Arithmetic))) → Arithmetic → Reader
  | 0, _, _, _, _ => .error .noOperand
  | fuel + 1, ops, tighter, first, cs =>
    match (frontSign? cs).bind fun (sign, rest) => (ops.lookup sign).map fun op => (op, rest) with
    | none => .ok (first, cs)
    | some (op, rest) => do
      let (second, rest) ← readLevel fuel tighter rest
      readMore fuel ops tighter (op first second) rest

/-- A number, a variable, a sign with its operand, or an expression in parentheses. -/
def readOperand : Nat → Reader
  | 0, _ => .error .noOperand
  | fuel + 1, cs =>
    let inner := fun (f : Arithmetic → Arithmetic) (rest : List Char) => do
      let (a, rest) ← readOperand fuel (skip rest)
      return (f a, rest)
    match cs with
    | '(' :: rest => do
      let (a, rest) ← readWhole fuel rest
      match skip rest with
      | ')' :: rest => return (a, rest)
      | _ => throw .noParenthesis
    | '-' :: rest => inner .negate rest
    | '+' :: rest => inner id rest
    | '!' :: rest => inner .isZero rest
    | '~' :: rest => inner .complement rest
    | c :: _ =>
      if c.isDigit then
        let (n, rest) := readNumber cs
        .ok (.number n, rest)
      else
        match readName? cs with
        | some (name, rest) => .ok (.parameter name, rest)
        | none => .error .noOperand
    | [] => .error .noOperand

end

/-- **The expression of a text.** -/
def parse (cs : List Char) : Except ArithmeticError Arithmetic := do
  let (a, rest) ← readWhole (16 * cs.length + 16) cs
  if (skip rest).isEmpty then return a else throw .trailing

/-! ### Values -/

/-- The number in 64 bits. -/
def wrap (n : Int) : Int := Int.bmod n 0x10000000000000000

/-- The number of 64 bits without a sign. -/
def bits (n : Int) : Nat := (n % 0x10000000000000000).toNat

/-- The truth of a condition as a number. -/
def ofBool (b : Bool) : Int := if b then 1 else 0

/-- The value of an operation; nothing for a division by zero. -/
def combine? (op : Operation) (a b : Int) : Option Int :=
  match op with
  | .add => some (wrap (a + b))
  | .sub => some (wrap (a - b))
  | .mul => some (wrap (a * b))
  | .div => if b = 0 then none else some (wrap (Int.tdiv a b))
  | .mod => if b = 0 then none else some (Int.tmod a b)
  | .shiftLeft => some (wrap ((bits a <<< (bits b % 64) : Nat) : Int))
  | .shiftRight => some (a >>> (bits b % 64))
  | .bitAnd => some (wrap (bits a &&& bits b : Nat))
  | .bitXor => some (wrap (bits a ^^^ bits b : Nat))
  | .bitOr => some (wrap (bits a ||| bits b : Nat))
  | .less => some (ofBool (a < b))
  | .atMost => some (ofBool (a ≤ b))
  | .greater => some (ofBool (b < a))
  | .atLeast => some (ofBool (b ≤ a))
  | .equal => some (ofBool (a = b))
  | .unequal => some (ofBool (a ≠ b))

/-- The number of a whole text, with blanks around it or not. Blanks alone are zero. -/
def number? (s : String) : Option Int :=
  let text := skip s.toList
  let (negative, cs) := match text with
    | '-' :: rest => (true, rest)
    | '+' :: rest => (false, rest)
    | cs => (false, cs)
  if cs.head?.any Char.isDigit then
    match readNumber cs with
    | (n, rest) =>
      if (skip rest).isEmpty then some (if negative then -(n : Int) else n) else none
  else if text.isEmpty then some 0 else none

/-- A computation with the variables that were assigned so far. -/
abbrev Valued := StateT (Table Int) (Except ArithmeticError)

/-- The value of a variable. -/
def valueOf (look : String → Option String) (name : String) : Valued Int := do
  match (← get).get? name with
  | some n => return n
  | none =>
    match look name with
    | none => return 0
    | some text =>
      match number? text with
      | some n => return wrap n
      | none => throw (.noNumber text)

/-- Applies an operation. -/
def compute (op : Operation) (a b : Int) : Valued Int :=
  match combine? op a b with
  | some n => return n
  | none => throw .zeroDivision

/-- **The value of an expression,** with variables as `look` finds them. -/
def eval (look : String → Option String) : Arithmetic → Valued Int
  | .number n => return wrap n
  | .parameter s => valueOf look s
  | .negate a => do return wrap (-(← eval look a))
  | .complement a => do return wrap (-(← eval look a) - 1)
  | .isZero a => do return ofBool ((← eval look a) = 0)
  | .apply op a b => do
    let x ← eval look a
    compute op x (← eval look b)
  | .both a b => do
    if (← eval look a) = 0 then return 0 else return ofBool ((← eval look b) ≠ 0)
  | .either a b => do
    if (← eval look a) ≠ 0 then return 1 else return ofBool ((← eval look b) ≠ 0)
  | .choose c a b => do
    if (← eval look c) ≠ 0 then eval look a else eval look b
  | .assign name op a => do
    let y ← eval look a
    let z ← match op with
      | none => pure y
      | some op => do compute op (← valueOf look name) y
    modify fun t => t.put name z
    return z

/-- The value of a text, and the variables that it assigns. -/
def value (look : String → Option String) (cs : List Char) :
    Except ArithmeticError (Int × Table Int) := do
  (eval look (← parse cs)).run []

end Arithmetic

end Arbor.Shell
