import Arbor.Shell.Program.Basic
import Arbor.Shell.Regex
import Arbor.Text.Utf8

/-! # Conditions and expressions as arguments

`test` tells by its exit code whether a condition holds: of texts, of numbers or of files, joined by
`!`, `-a`, `-o` and parentheses. `expr` writes the value of an expression. -/

namespace Arbor.Shell.Program

/-! ### Conditions -/

/-- The whole number of a text, with blanks around it. -/
def wholeNumber (s : String) : Except String Int :=
  let cs := (s.toList.dropWhile (· == ' ')).reverse.dropWhile (· == ' ')
  match int? (String.ofList cs.reverse) with
  | some n => .ok n
  | none => .error ("Illegal number: " ++ s)

/-- The signs that ask something of one text. -/
def unarySigns : List String :=
  ["-n", "-z", "-e", "-f", "-d", "-r", "-w", "-x", "-s", "-L", "-h", "-p", "-S", "-b", "-c",
    "-t", "-k",
    "-u", "-g", "-O", "-G"]

/-- What a sign asks of one text. -/
def unaryTest (s : State) (sign arg : String) : Bool :=
  let p := s.locate arg
  let isLink := match s.files.status false p with
    | .ok (_, .link _) => true
    | _ => false
  match sign with
  | "-n" => !arg.isEmpty
  | "-z" => arg.isEmpty
  | "-f" => s.files.isFile p
  | "-d" => s.files.isFolder p
  | "-x" => (s.files.walk .followed p).toOption.any fun loc => s.files.exists? p && s.isRunnable loc
  | "-s" => s.files.isFolder p || (s.files.read p).toOption.any fun b => b.size != 0
  | "-L" => isLink
  | "-h" => isLink
  | _ => ["-e", "-r", "-w", "-O", "-G"].contains sign && s.files.exists? p

/-- The signs that compare two texts. -/
def textSigns : List (String × (String → String → Bool)) :=
  [("=", fun a b => a = b), ("!=", fun a b => a != b), ("<", fun a b => a < b),
    (">", fun a b => b < a)]

/-- The signs that compare two numbers. -/
def numberSigns : List (String × (Int → Int → Bool)) :=
  [("-eq", fun a b => a = b), ("-ne", fun a b => a != b), ("-lt", fun a b => a < b),
    ("-le", fun a b => a ≤ b), ("-gt", fun a b => b < a), ("-ge", fun a b => b ≤ a)]

/-- The signs that compare two files. -/
def fileSigns : List String := ["-nt", "-ot", "-ef"]

/-- What a sign between two texts asks, if it is one. -/
def binaryTest? (s : State) (sign : String) : Option (String → String → Except String Bool) :=
  match textSigns.lookup sign, numberSigns.lookup sign with
  | some f, _ => some fun a b => .ok (f a b)
  | none, some f => some fun a b => do return f (← wholeNumber a) (← wholeNumber b)
  | none, none =>
    if fileSigns.contains sign then some fun a b =>
      .ok (sign = "-ef" && s.files.exists? (s.locate a) &&
        (s.files.canonical (s.locate a)).toOption == (s.files.canonical (s.locate b)).toOption)
    else none

/-- A part of a condition: its truth and what stands behind it. -/
abbrev Judged := Except String (Bool × List String)

mutual

/-- Conditions joined by `-o`. -/
def readEither (s : State) : Nat → List String → Judged
  | 0, _ => .error "argument expected"
  | fuel + 1, args => do
    let (v, rest) ← readBoth s fuel args
    match rest with
    | "-o" :: rest =>
      let (w, rest) ← readEither s fuel rest
      return (v || w, rest)
    | rest => return (v, rest)

/-- Conditions joined by `-a`. -/
def readBoth (s : State) : Nat → List String → Judged
  | 0, _ => .error "argument expected"
  | fuel + 1, args => do
    let (v, rest) ← readSingle s fuel args
    match rest with
    | "-a" :: rest =>
      let (w, rest) ← readBoth s fuel rest
      return (v && w, rest)
    | rest => return (v, rest)

/-- A single condition. -/
def readSingle (s : State) : Nat → List String → Judged
  | 0, _ => .error "argument expected"
  | fuel + 1, args =>
    match args with
    | [] => .ok (false, [])
    | [a] => .ok (!a.isEmpty, [])
    | a :: sign :: rest =>
      match binaryTest? s sign, rest with
      | some f, b :: rest => do return (← f a b, rest)
      | some _, [] => .error (sign ++ ": argument expected")
      | none, _ =>
        if a = "!" then do
          let (v, rest) ← readSingle s fuel (sign :: rest)
          return (!v, rest)
        else if a = "(" then do
          let (v, rest) ← readEither s fuel (sign :: rest)
          match rest with
          | ")" :: rest => return (v, rest)
          | _ => throw "closing paren expected"
        else if unarySigns.contains a then .ok (unaryTest s a sign, rest)
        else .ok (!a.isEmpty, sign :: rest)

end

/-- The truth of a condition, or what is wrong with it. -/
def condition (s : State) (args : List String) : Except String Bool := do
  let (v, rest) ← readEither s (3 * args.length + 3) args
  if rest.isEmpty then return v else throw (args.headD "" ++ ": unexpected operator")

/-- Tests a condition under the name of a program. -/
def judge (program : String) : Program := fun args => do
  match condition (← get) args with
  | .ok v => Sh.finish (if v then 0 else 1)
  | .error text => do
    Sh.report (program ++ ": " ++ text)
    Sh.finish 2

/-- Tests a condition. -/
def test : Program := judge "test"

/-- Tests a condition between brackets. Of the last word only the first character is looked at. -/
def bracket : Program := fun args => do
  if args.getLast?.any (·.startsWith "]") then judge "[" args.dropLast
  else do
    Sh.report "[: missing ]"
    Sh.finish 2

/-! ### Expressions -/

/-- The operators of `expr` by how tightly they bind, the loosest first. -/
def exprLevels : List (List String) :=
  [["|"], ["&"], ["<", "<=", "=", "==", "!=", ">=", ">"], ["+", "-"], ["*", "/", "%"], [":"]]

/-- The text counts as nothing. -/
def isNull (s : String) : Bool := s.isEmpty || int? s = some 0

/-- The value of a comparison. -/
def truth (b : Bool) : Except String String := .ok (if b then "1" else "0")

/-- The text of characters that stand for bytes. -/
def ofBytesText (cs : List Char) : String := String.ofList (Text.decode (ofOctets cs))

/-- What an expression matches at the start of a text: its group if it has one, else its length. -/
def matched (text pattern : String) : Except String String :=
  match Regex.parse .basic (octetsOf pattern) with
  | .error fault => .error fault.message
  | .ok r =>
    let cs := octetsOf text
    let grouped := r.groupCount ≠ 0
    match r.matchFrom? cs.toArray 0 with
    | none => .ok (if grouped then "" else "0")
    | some (stop, groups) =>
      if grouped then
        match groups.lookup 1 with
        | some (a, b) => .ok (ofBytesText ((cs.take b).drop a))
        | none => .ok ""
      else .ok (Nat.repr stop)

/-- The value of an operation. -/
def exprApply (op a b : String) : Except String String :=
  let (less, same) := match int? a, int? b with
    | some x, some y => (decide (x < y), decide (x = y))
    | _, _ => (decide (a < b), decide (a = b))
  let number := fun (f : Int → Int → Except String Int) =>
    match int? a, int? b with
    | some x, some y => (f x y).map toString
    | _, _ => .error "non-integer argument"
  match op with
  | "|" => .ok (if isNull a then if isNull b then "0" else b else a)
  | "&" => .ok (if isNull a || isNull b then "0" else a)
  | "<" => truth less
  | "<=" => truth (less || same)
  | "=" => truth same
  | "==" => truth same
  | "!=" => truth !same
  | ">=" => truth !less
  | ">" => truth !(less || same)
  | "+" => number fun x y => .ok (x + y)
  | "-" => number fun x y => .ok (x - y)
  | "*" => number fun x y => .ok (x * y)
  | "/" => number fun x y => if y = 0 then .error "division by zero" else .ok (Int.tdiv x y)
  | "%" => number fun x y => if y = 0 then .error "division by zero" else .ok (Int.tmod x y)
  | _ => matched a b

/-- A part of an expression: its value and what stands behind it. -/
abbrev Valued := Except String (String × List String)

mutual

/-- The operations from a level on; `before` is the last argument that was read. -/
def exprLevel : Nat → List (List String) → String → List String → Valued
  | 0, _, _, _ => .error "syntax error"
  | fuel + 1, [], before, args => exprOperand fuel before args
  | fuel + 1, ops :: tighter, before, args => do
    let (first, rest) ← exprLevel fuel tighter before args
    exprMore fuel ops tighter first rest

/-- The operations of one level behind a first value. -/
def exprMore : Nat → List String → List (List String) → String → List String → Valued
  | 0, _, _, _, _ => .error "syntax error"
  | fuel + 1, ops, tighter, first, args =>
    match args with
    | op :: rest =>
      if ops.contains op then do
        let (second, rest) ← exprLevel fuel tighter op rest
        exprMore fuel ops tighter (← exprApply op first second) rest
      else .ok (first, args)
    | [] => .ok (first, [])

/-- A value, a function of values, or an expression in parentheses. -/
def exprOperand : Nat → String → List String → Valued
  | 0, _, _ => .error "syntax error"
  | fuel + 1, before, args =>
    match args with
    | [] => .error ("syntax error: missing argument after '" ++ before ++ "'")
    | "(" :: rest => do
      let (v, rest) ← exprLevel fuel exprLevels "(" rest
      match rest with
      | ")" :: rest => return (v, rest)
      | _ => throw "syntax error: expecting ')' after '('"
    | "length" :: s :: rest => .ok (Nat.repr s.utf8ByteSize, rest)
    | "substr" :: s :: first :: size :: rest =>
      let part := match count? first, count? size with
        | some i, some n => if i = 0 then [] else ((octetsOf s).drop (i - 1)).take n
        | _, _ => []
      .ok (ofBytesText part, rest)
    | "index" :: s :: cs :: rest =>
      .ok (Nat.repr ((((octetsOf s).findIdx? fun c =>
        (octetsOf cs).contains c).map (· + 1)).getD 0), rest)
    | "match" :: s :: pattern :: rest => do return (← matched s pattern, rest)
    | a :: rest => .ok (a, rest)

end

/-- Writes the value of an expression; the exit code tells whether it is nothing. -/
def expr : Program := fun args => do
  if args.isEmpty then
    fail 2 "expr: missing operand\nTry 'expr --help' for more information."
  else
    match exprLevel (16 * args.length + 16) exprLevels "expr" args with
    | .error text => fail 2 ("expr: " ++ text)
    | .ok (_, extra :: _) => fail 2 ("expr: syntax error: unexpected argument '" ++ extra ++ "'")
    | .ok (v, []) => do
      Sh.say (v ++ "\n")
      Sh.finish (if isNull v then 1 else 0)

end Arbor.Shell.Program
