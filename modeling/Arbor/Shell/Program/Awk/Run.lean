import Arbor.Shell.Program.Awk.Machine

/-! # Programs at work

The values of expressions, what statements do, and the rules of a program over its records. -/

namespace Arbor.Shell.Program.Awk

/-- A place that a value can be put in. -/
inductive Place where
  | named (r : Ref)
  | field (n : Nat)
  | element (r : Ref) (key : List Char)

namespace Act

/-- The value in a place. An element that is looked at is there from then on. -/
def valueIn : Place → Act Value
  | .named r => value r
  | .field n => field n
  | .element r key => do
    let es ← elements r
    match es.lookup key with
    | some v => return v
    | none => do
      setElements r ((key, .unset) :: es)
      return .unset

/-- Puts a value in a place. -/
def put : Place → Value → Act Unit
  | .named r, v => setValue r v
  | .field n, v => setField n v
  | .element r key, v => do
    let es ← elements r
    setElements r (if es.any fun e => e.1 = key then es.map fun e =>
      if e.1 = key then (key, v) else e
      else (key, v) :: es)

end Act

/-- What is left of a number behind all whole multiples of another. -/
def leftOver (x y : Float) : Float :=
  match Decimal.ofFloat? x, Decimal.ofFloat? y with
  | some a, some b =>
    let places := max a.places b.places
    if b.value = 0 then 0 / 0
    else (⟨(a.scaled places).tmod (b.scaled places), places⟩ : Decimal).toFloat
  | some _, none => x
  | none, _ => 0 / 0

/-- The value of an operation on numbers. -/
def Operation.apply (op : Operation) (x y : Float) : Float :=
  match op with
  | .add => x + y
  | .subtract => x - y
  | .multiply => x * y
  | .divide => x / y
  | .remainder => leftOver x y
  | .power => Float.pow x y

/-- The comparison holds of an order. -/
def Comparison.holds (op : Comparison) (o : Option Ordering) : Bool :=
  match op with
  | .less => o = some .lt
  | .lessOrEqual => o = some .lt || o = some .eq
  | .equal => o = some .eq
  | .unequal => o != some .eq
  | .greater => o = some .gt
  | .greaterOrEqual => o = some .gt || o = some .eq

/-- A replacement filled in for a match: an ampersand stands for the match, unless a backslash
stands in front of it. -/
def filledIn (found : List Char) : List Char → List Char
  | [] => []
  | '\\' :: '&' :: cs => '&' :: filledIn found cs
  | '\\' :: '\\' :: cs => '\\' :: filledIn found cs
  | '&' :: cs => found ++ filledIn found cs
  | c :: cs => c :: filledIn found cs

/-- The text behind a position, with matches replaced. -/
def replaced (text : Array Char) (replacement : List Char) :
    Nat → List (Nat × Nat × Regex.Groups) → List Char
  | pos, [] => Regex.between text pos text.size
  | pos, (start, stop, _) :: rest =>
    Regex.between text pos start ++ filledIn (Regex.between text start stop) replacement ++
      replaced text replacement stop rest

/-- A part of a text: from a position on, at most so many characters. -/
def part (cs : List Char) (start : Float) (count : Option Float) : List Char :=
  let low := truncated (-0x7FFFFFFF) 0x7FFFFFFF (start + 0.5).floor
  let high := match count with
    | none => (cs.length : Int) + 1
    | some n => low + truncated (-0x7FFFFFFF) 0x7FFFFFFF (n + 0.5).floor
  let first := max low 1
  (cs.drop (first - 1).toNat).take (high - first).toNat

/-- Where a text stands in another, from one on; zero if it does not. -/
def indexOf (needle cs : List Char) : Nat :=
  (((List.range (cs.length + 1)).find? fun i => needle.isPrefixOf (cs.drop i)).map (· + 1)).getD 0

/-- The number under which a key is kept: a mix of its bytes. -/
def keyNumber (key : List Char) : UInt32 :=
  key.foldl (fun h c => (h ^^^ UInt32.ofNat c.toNat) * 16777619) 2166136261

/-- The keys of an array in the order in which they are gone through: by their numbers, of which the
last six bits count. -/
def orderedKeys (es : Elements) : List (List Char) :=
  (es.map Prod.fst).mergeSort fun a b => keyNumber a % 64 ≤ keyNumber b % 64

/-- The next of the numbers that seem to be random. -/
def nextSeed (seed : Nat) : Nat := (seed * 1103515245 + 12345) % 0x80000000

/-- The function of a name on a number. -/
def numeric? : String → Option (Float → Float)
  | "cos" => some Float.cos
  | "exp" => some Float.exp
  | "log" => some Float.log
  | "sin" => some Float.sin
  | "sqrt" => some Float.sqrt
  | "int" => some fun x => if x < 0 then x.ceil else x.floor
  | _ => none

/-- What is the same during a run: the functions, and how other programs are run. -/
structure Setting where
  functions : List Function
  launcher : Launcher

open Act

mutual

/-- **The value of an expression,** found in steps that are nested at most `fuel` deep. -/
def eval (w : Setting) : Nat → Expr → Act Value
  | 0, _ => overrun
  | fuel + 1, e => do
    match e with
    | .number x => return .number x
    | .text cs => return .text cs
    | .pattern r => return .ofBool (r.isIn (← get).record.toArray)
    | .named name => value (← ref name)
    | .field e => valueIn (← placeOf w fuel (.field e))
    | .element a keys => valueIn (← placeOf w fuel (.element a keys))
    | .contains a keys => do
      let key ← keyOf w fuel keys
      return .ofBool ((← elements (← ref a)).any fun e => e.1 = key)
    | .plus e => return .number (← eval w fuel e).toNumber
    | .minus e => return .number (-(← eval w fuel e).toNumber)
    | .negation e => return .ofBool (!(← eval w fuel e).isTrue)
    | .operation op a b => do
      let x ← eval w fuel a
      let y ← eval w fuel b
      return .number (op.apply x.toNumber y.toNumber)
    | .comparison op a b => do
      let x ← eval w fuel a
      let y ← eval w fuel b
      let format ← globalText "CONVFMT"
      return .ofBool (op.holds (x.order format y))
    | .fits negated a b => do
      let cs ← text (← eval w fuel a)
      let r ← regexIn w fuel b
      return .ofBool (r.isIn cs.toArray != negated)
    | .both a b => do
      if (← eval w fuel a).isTrue then return .ofBool (← eval w fuel b).isTrue
      else return .ofBool false
    | .either a b => do
      if (← eval w fuel a).isTrue then return .ofBool true
      else return .ofBool (← eval w fuel b).isTrue
    | .choice c a b => do
      if (← eval w fuel c).isTrue then eval w fuel a else eval w fuel b
    | .join a b => do
      let x ← text (← eval w fuel a)
      let y ← text (← eval w fuel b)
      return .text (x ++ y)
    | .assign op place e => do
      let p ← placeOf w fuel place
      let v ← eval w fuel e
      let v ← match op with
        | none => pure v
        | some op => do pure (.number (op.apply (← valueIn p).toNumber v.toNumber))
      put p v
      return v
    | .step op isNew place => do
      let p ← placeOf w fuel place
      let old := (← valueIn p).toNumber
      let new := op.apply old 1
      put p (.number new)
      return .number (if isNew then new else old)
    | .call name args => call w fuel name args
    | .builtin name args => builtin w fuel name args
    | .getline source place => getline w fuel source place
    | .tuple es => do
      let mut last : Value := .unset
      for e in es do
        last ← eval w fuel e
      return last

/-- The place that an expression names. -/
def placeOf (w : Setting) : Nat → Expr → Act Place
  | 0, _ => overrun
  | fuel + 1, e => do
    match e with
    | .named name => return .named (← ref name)
    | .element a keys => do
      let r ← ref a
      return .element r (← keyOf w fuel keys)
    | .field e => do
      let x := (← eval w fuel e).toNumber
      if x < 0 then failAt ("negative field index $" ++ String.ofList (numberText [] x))
      return .field (countOf x)
    | _ => return .field 0

/-- The key of some expressions. -/
def keyOf (w : Setting) : Nat → List Expr → Act (List Char)
  | 0, _ => overrun
  | fuel + 1, es => do
    let parts ← es.mapM fun e => do text (← eval w fuel e)
    return (← globalText "SUBSEP").intercalate parts

/-- The expression to look for that an argument stands for. -/
def regexIn (w : Setting) : Nat → Expr → Act Regex
  | 0, _ => overrun
  | fuel + 1, e => do
    match e with
    | .pattern r => return r
    | e => regexOf (← text (← eval w fuel e))

/-- Reads a record: one if that was done, zero at the end, and less if it cannot be read. -/
def getline (w : Setting) : Nat → Source → Option Expr → Act Value
  | 0, _, _ => overrun
  | fuel + 1, source, place => do
    let outcome ← match source with
      | .main => do pure (some (← nextRecord maxInputs))
      | .file name => do nextOfFile (← text (← eval w fuel name))
      | .command line => do nextOfCommand w.launcher (← text (← eval w fuel line))
    match outcome with
    | none => return .number (-1)
    | some none => return .number 0
    | some (some record) => do
      match place with
      | none => setRecord record
      | some e => do put (← placeOf w fuel e) (.input record)
      return .number 1

/-- Calls a function of the program. A variable that is given by its name is handed over as it is,
so that an array can be filled. -/
def call (w : Setting) : Nat → String → List Expr → Act Value
  | 0, _, _ => overrun
  | fuel + 1, name, args => do
    match w.functions.find? fun f => f.name = name with
    | none => return .unset
    | some f => do
      let given : List Cell ← args.mapM fun e => do
        match e with
        | .named n => do
          let r ← ref n
          match ← cell r, n with
          | _, "NF" => return Cell.value (← value r)
          | .value v, _ => return .value v
          | _, _ => return .link r
        | e => return .value (← eval w fuel e)
      let outer ← get
      let base := outer.stack.size
      let cells := (given ++ List.replicate (f.parameters.length - given.length) Cell.blank).take
        f.parameters.length
      set { outer with
        stack := outer.stack ++ cells.toArray
        locals := f.parameters.zip (List.range' base f.parameters.length) }
      let result ← try
          execAll w fuel f.body
          pure Value.unset
        catch
          | .given v => pure v
          | jump => throw jump
      modify fun m => { m with stack := m.stack.take base, locals := outer.locals }
      return result

/-- Calls a function that is always there. -/
def builtin (w : Setting) : Nat → String → List Expr → Act Value
  | 0, _, _ => overrun
  | fuel + 1, name, args => do
    let textOf (e : Expr) : Act (List Char) := do text (← eval w fuel e)
    let numberOf (e : Expr) : Act Float := do return (← eval w fuel e).toNumber
    match name, args with
    | "length", [] => return .ofNat (← get).record.length
    | "length", .named n :: _ => do
      let r ← ref n
      match ← cell (← target r maxLinks) with
      | .array es => return .ofNat es.length
      | _ => return .ofNat (← text (← value r)).length
    | "length", e :: _ => return .ofNat (← textOf e).length
    | "substr", [s, start] => do
      let cs ← textOf s
      return .text (part cs (← numberOf start) none)
    | "substr", [s, start, count] => do
      let cs ← textOf s
      let start ← numberOf start
      return .text (part cs start (some (← numberOf count)))
    | "index", [s, needle] => do
      let cs ← textOf s
      return .ofNat (indexOf (← textOf needle) cs)
    | "split", s :: .named a :: rest => do
      let cs ← textOf s
      let pieces ← match rest with
        | .pattern r :: _ => pure (if cs.isEmpty then [] else splitByRegex r cs)
        | e :: _ => do split (← textOf e) false cs
        | [] => do split (← globalText "FS") false cs
      let es := pieces.zipIdx.map fun p => ((Nat.repr (p.2 + 1)).toList, Value.input p.1)
      setElements (← ref a) es.reverse
      return .ofNat pieces.length
    | "sub", [r, s] => substitute w fuel false r s (.field (.number 0))
    | "sub", [r, s, place] => substitute w fuel false r s place
    | "gsub", [r, s] => substitute w fuel true r s (.field (.number 0))
    | "gsub", [r, s, place] => substitute w fuel true r s place
    | "match", [s, r] => do
      let cs ← textOf s
      let found := (← regexIn w fuel r).find? cs.toArray 0
      let start := (found.map fun f => f.1 + 1).getD 0
      setGlobal "RSTART" (.ofNat start)
      setGlobal "RLENGTH" (match found with
        | some f => .ofNat (f.2.1 - f.1)
        | none => .number (-1))
      return .ofNat start
    | "sprintf", f :: rest => do
      let (cs, fault) ← formatted w fuel f rest
      match fault with
      | none => return .text cs
      | some text => failAt (text "sprintf")
    | "tolower", [s] => return .text ((← textOf s).map Char.toLower)
    | "toupper", [s] => return .text ((← textOf s).map Char.toUpper)
    | "atan2", [y, x] => do
      let y ← numberOf y
      return .number (Float.atan2 y (← numberOf x))
    | "rand", _ => do
      modify fun m => { m with seed := nextSeed m.seed }
      return .number (Float.ofNat (← get).seed / 0x80000000)
    | "srand", args => do
      let old := (← get).seed
      let seed ← match args with
        | e :: _ => do pure (countOf (← numberOf e))
        | [] => pure 0
      modify fun m => { m with seed := seed }
      return .ofNat old
    | "system", [line] => do
      return .ofNat (← runLine w.launcher none (decoded (← textOf line)))
    | "close", e :: _ => do
      match ← close w.launcher (decoded (← textOf e)) with
      | some code => return .ofNat code
      | none => return .number (-1)
    | "fflush", _ => do
      flush
      return .number 0
    | name, args =>
      match numeric? name, args with
      | some f, [e] => return .number (f (← numberOf e))
      | some f, [] => return .number (f (Awk.numberOf (← get).record))
      | _, _ => return .unset

/-- Replaces the first match of an expression in a place, or all of them; how many. -/
def substitute (w : Setting) : Nat → Bool → Expr → Expr → Expr → Act Value
  | 0, _, _, _, _ => overrun
  | fuel + 1, all, r, s, place => do
    let regex ← regexIn w fuel r
    let replacement ← text (← eval w fuel s)
    let isPlace := place.isPlace
    let p ← placeOf w fuel place
    let cs ← if isPlace then text (← valueIn p) else text (← eval w fuel place)
    let found := regex.occurrences cs.toArray
    let found := if all then found else found.take 1
    if !found.isEmpty && isPlace then put p (.text (replaced cs.toArray replacement 0 found))
    return .ofNat found.length

/-- What a format writes for some expressions, and what is wrong with it. -/
def formatted (w : Setting) : Nat → Expr → List Expr → Act (List Char × Option (String → String))
  | 0, _, _ => overrun
  | fuel + 1, f, es => do
    let cs ← text (← eval w fuel f)
    let values ← es.mapM fun e => do
      let v ← eval w fuel e
      return (v, ← text v)
    let shown := fun (name : String) => name ++ "(\"" ++ String.ofList cs ++ "\")"
    match format (cs.length + 1) 1 cs values with
    | (out, none) => return (out, none)
    | (out, some .tooFew) =>
      return (out, some fun name => "not enough arguments passed to " ++ shown name)
    | (out, some (.improper n)) =>
      return (out, some fun name =>
        "improper conversion(number " ++ Nat.repr n ++ ") in " ++ shown name)

/-- Writes to where a statement says. -/
def writeTo (w : Setting) : Nat → Option Target → List Char → Act Unit
  | 0, _, _ => overrun
  | fuel + 1, target, cs => do
    match target with
    | none => modify fun m => { m with waiting := cs :: m.waiting }
    | some (.file e) => do writeFile false (← text (← eval w fuel e)) cs
    | some (.appended e) => do writeFile true (← text (← eval w fuel e)) cs
    | some (.command e) => do writeCommand (← text (← eval w fuel e)) cs

/-- Does what a statement says. -/
def exec (w : Setting) : Nat → Statement → Act Unit
  | 0, _ => overrun
  | fuel + 1, s => do
    match s with
    | .evaluate e => do
      let _ ← eval w fuel e
    | .print es target => do
      let texts ← if es.isEmpty then pure [(← get).record]
        else es.mapM fun e => do textBy "OFMT" (← eval w fuel e)
      let line := (← globalText "OFS").intercalate texts ++ (← globalText "ORS")
      writeTo w fuel target line
    | .printf es target =>
      match es with
      | [] => return ()
      | f :: rest => do
        let (out, fault) ← formatted w fuel f rest
        writeTo w fuel target out
        match fault with
        | none => return ()
        | some text => failAt (text "printf")
    | .block body => execAll w fuel body
    | .ifElse c a b => do
      if (← eval w fuel c).isTrue then exec w fuel a else exec w fuel b
    | .loop c body => do
      if (← eval w fuel c).isTrue then
        if ← looped w fuel body then exec w fuel (.loop c body)
    | .loopOnce body c => do
      if ← looped w fuel body then
        if (← eval w fuel c).isTrue then exec w fuel (.loopOnce body c)
    | .count start c step body => do
      exec w fuel start
      let goesOn ← match c with
        | none => pure true
        | some c => do pure (← eval w fuel c).isTrue
      if goesOn then
        if ← looped w fuel body then exec w fuel (.count step c step body)
    | .loopOver name array body => do
      let keys := orderedKeys (← elements (← ref array))
      let r ← ref name
      let mut goesOn := true
      for key in keys do
        if goesOn then
          setValue r (.input key)
          goesOn ← looped w fuel body
    | .next => throw .next
    | .nextFile => throw .nextFile
    | .leave => throw .leave
    | .again => throw .again
    | .exit code => do
      match code with
      | none => pure ()
      | some e => do
        let x := (← eval w fuel e).toNumber
        modify fun m => { m with exitCode := (truncated (-0x7FFFFFFF) 0x7FFFFFFF x % 256).toNat }
      throw .exit
    | .give e => do
      match e with
      | none => throw (.given .unset)
      | some e => throw (.given (← eval w fuel e))
    | .delete array keys => do
      let r ← ref array
      match keys with
      | none => setElements r []
      | some keys => do
        let key ← keyOf w fuel keys
        setElements r ((← elements r).filter fun e => e.1 != key)

/-- Goes through statements. -/
def execAll (w : Setting) : Nat → List Statement → Act Unit
  | 0, _ => overrun
  | fuel + 1, ss => ss.forM (exec w fuel)

/-- Does what the statement of a loop says; whether the loop goes on. -/
def looped (w : Setting) : Nat → Statement → Act Bool
  | 0, _ => overrun
  | fuel + 1, s => do
    try
      exec w fuel s
      return true
    catch
      | .leave => return false
      | .again => return true
      | jump => throw jump

end

/-! ### Rules -/

/-- How deep steps may be nested, rounds of a loop included. -/
def maxSteps : Nat := 1000000

/-- The rule with a number is for the record that is at work. -/
def meets (w : Setting) (i : Nat) : Condition → Act Bool
  | .start => return false
  | .finish => return false
  | .always => return true
  | .on e => do return (← eval w maxSteps e).isTrue
  | .span a b => do
    if !(← get).spans.contains i && !(← eval w maxSteps a).isTrue then return false
    let ends := (← eval w maxSteps b).isTrue
    modify fun m => { m with
      spans := if ends then m.spans.filter (· != i) else i :: m.spans.filter (· != i) }
    return true

/-- Does what the rules say of the record that is at work. -/
def applyRules (w : Setting) (rules : List Rule) : Act Unit := do
  for (r, i) in rules.zipIdx do
    if ← meets w i r.condition then
      match r.body with
      | some body => execAll w maxSteps body
      | none => exec w maxSteps (.print [] none)

/-- Goes through the records of the input, at most `fuel` of them. -/
def records (w : Setting) (rules : List Rule) : Nat → Act Unit
  | 0 => overrun
  | fuel + 1 => do
    match ← nextRecord maxInputs with
    | none => return ()
    | some record => do
      setRecord record
      try applyRules w rules
      catch
        | .next => pure ()
        | .nextFile => modify fun m => { m with left := none }
        | jump => throw jump
      records w rules fuel

/-- Does what the rules of one kind say. -/
def atEdge (w : Setting) (rules : List Rule) (isKind : Condition → Bool) : Act Unit := do
  for r in rules.filter fun r => isKind r.condition do
    execAll w maxSteps (r.body.getD [])

/-- Goes through a part of a program, up to its end. -/
def upToExit (act : Act Unit) : Act Bool := do
  try
    act
    return true
  catch
    | .exit => return false
    | .fault text => throw (.fault text)
    | _ => return true

/-- **Runs a program:** the rules for the start, those for the records, and those for the end, which
are left out if there is nothing to read for. -/
def runScript (launcher : Launcher) (script : Script) : Act Unit := do
  let w : Setting := { functions := script.functions, launcher := launcher }
  let rules := script.rules
  let isStart := fun (c : Condition) => c matches .start
  let isFinish := fun (c : Condition) => c matches .finish
  let goesOn ← upToExit (atEdge w rules isStart)
  if rules.any fun r => !isStart r.condition then
    if goesOn then
      let _ ← upToExit (records w rules maxSteps)
    let _ ← upToExit (atEdge w rules isFinish)

end Arbor.Shell.Program.Awk
