import Arbor.Shell.Program.Sort

/-! # Programs that work line by line

Counting, lines that repeat, lines in the opposite order, lines with numbers. -/

namespace Arbor.Shell.Program

/-! ### Counting -/

/-- The options of `seq`. -/
def seqUsage : Usage where
  program := "seq"
  code := 1
  letters := "f:s:w"
  names := [("format=", 'f'), ("separator=", 's'), ("equal-width", 'w')]
  ordered := true

/-- The arguments of `seq` with a mark in front of a negative number, which is no option. -/
def seqArguments : List String → List String
  | [] => []
  | arg :: rest =>
    match arg.toList with
    | '-' :: c :: _ => if c.isDigit || c == '.' then "--" :: arg :: rest else
        if arg = "-s" || arg = "-f" then arg :: rest.take 1 ++ seqArguments (rest.drop 1)
        else arg :: seqArguments rest
    | _ => arg :: rest
  termination_by args => args.length
  decreasing_by all_goals (simp only [List.length_drop, List.length_cons]; omega)

/-- A number of `seq` with the width of its text. -/
structure Bound where
  number : Decimal
  width : Nat

/-- The number of an argument. -/
def bound? (s : String) : Option Bound :=
  let cs := s.toList.dropWhile fun c => c == ' ' || c == '+'
  match Decimal.read? cs with
  | some (d, []) =>
    some ⟨d, cs.length + (if cs.head? = some '.' then 1 else 0)⟩
  | _ => none

/-- The text of a whole number of last places. -/
def decimalText (places : Nat) (n : Int) : String :=
  String.ofList ((if n < 0 then ['-'] else []) ++ Decimal.fixedDigits places ⟨n, places⟩)

/-- The numbers from the first to the last. -/
def countUp (first step last : Int) : List Int :=
  let n := if 0 < step then (last - first) / step + 1
    else if step < 0 then (first - last) / (-step) + 1 else 0
  (List.range n.toNat).map fun (i : Nat) => first + step * (i : Int)

/-- A text with zeros behind its sign up to a width. -/
def zeroFilled (width : Nat) (text : String) : String :=
  let zeros := List.replicate (width - text.length) '0'
  match text.toList with
  | '-' :: digits => String.ofList ('-' :: zeros ++ digits)
  | digits => String.ofList (zeros ++ digits)

/-- The width of numbers that are written with the same width. -/
def commonWidth (places : Nat) (first last : Bound) : Nat :=
  let wide := fun (b : Bound) =>
    let point := if b.number.places = 0 && places ≠ 0 then 1 else 0
    let lost := if b.number.places ≠ 0 && places = 0 then 1 else 0
    b.width + places + point - b.number.places - lost
  max (wide first) (wide last)

/-- What is wrong with the format of `seq`. -/
def formatFault? (format : String) : Option String :=
  let rec scan : List Char → Nat → Option String
    | [], found => if found = 0 then some " has no % directive" else none
    | '%' :: '%' :: rest, found => scan rest found
    | '%' :: rest, found =>
      match rest.dropWhile fun c => Format.isFlag c || c.isDigit || c == '.' || c == '\'' with
      | [] => some " ends in %"
      | c :: _ =>
        if !"aAeEfFgG".toList.contains c then some (" has unknown %" ++ c.toString ++ " directive")
        else if found ≠ 0 then some " has too many % directives"
        else scan rest (found + 1)
    | _ :: rest, found => scan rest found
  (scan format.toList 0).map fun text => "format " ++ Names.argument format ++ text

/-- Counts, by one if no step is given. -/
def seq : Program := fun args => seqUsage.checked (fun a => do
  let bad := a.words.find? fun w => (bound? w).isNone
  match bad, a.words[3]?, a.words.filterMap bound? with
  | _, some extra, _ => seqUsage.refuse ("extra operand " ++ Names.argument extra)
  | some word, none, _ =>
    seqUsage.refuse ("invalid floating point argument: " ++ Names.argument word)
  | none, none, [] => lacking "seq" "operand"
  | none, none, b :: more => do
    let one : Bound := ⟨⟨1, 0⟩, 1⟩
    let (first, step, last) := match b :: more with
      | [last] => (one, one, last)
      | first :: last :: [] => (first, one, last)
      | first :: step :: last :: _ => (first, step, last)
      | [] => (one, one, one)
    let fault := (a.value? 'f').bind formatFault?
    if step.number.value = 0 then
      seqUsage.refuse ("invalid Zero increment value: " ++ Names.argument ((a.words[1]?).getD ""))
    else if fault.isSome then fail 1 ("seq: " ++ fault.getD "")
    else do
      let places := max first.number.places step.number.places
      let fine := max places last.number.places
      let numbers := countUp (first.number.scaled fine) (step.number.scaled fine)
        (last.number.scaled fine)
      let texts := numbers.map fun n =>
        decimalText places (n / Int.ofNat (Decimal.ten (fine - places)))
      let width := if a.has 'w' then commonWidth places first last else 0
      let shown := texts.map fun t =>
        match a.value? 'f' with
        | some format => (Format.render format [t]).bytes
        | none => (zeroFilled width t).toUTF8.toList
      let between := ((a.value? 's').getD "\n").toUTF8.toList
      if !texts.isEmpty then
        Sh.emit 1 (.ofBytes (List.intercalate between shown ++
          [Stream.newline]))) (seqArguments args)

/-! ### Repeated lines -/

/-- The options of `uniq`. -/
def uniqUsage : Usage where
  program := "uniq"
  code := 1
  letters := "Dcdf:is:uw:z"
  names := [("count", 'c'), ("repeated", 'd'), ("all-repeated=?", 'D'), ("skip-fields=", 'f'),
    ("ignore-case", 'i'), ("skip-chars=", 's'), ("unique", 'u'), ("check-chars=", 'w'),
    ("zero-terminated", 'z')]

/-- What is compared of a line. -/
def comparedPart (a : Arguments) (line : List UInt8) : List UInt8 :=
  let number := fun (c : Char) => ((a.value? c).bind count?).getD 0
  let rest := (behindFields none (number 'f') line).drop (number 's')
  let rest := match (a.value? 'w').bind count? with
    | some n => rest.take n
    | none => rest
  if a.has 'i' then rest.map upperByte else rest

/-- Groups of lines that are alike. -/
def alike (a : Arguments) : List (List UInt8) → List (List (List UInt8))
  | [] => []
  | line :: rest =>
    match alike a rest with
    | (next :: group) :: more =>
      if comparedPart a next = comparedPart a line then (line :: next :: group) :: more
      else [line] :: (next :: group) :: more
    | groups => [line] :: groups

/-- What the numbers of options stand for, in the words of `uniq`. -/
def uniqNumbers : List (Char × String) :=
  [('f', "fields to skip"), ('s', "bytes to skip"), ('w', "bytes to compare")]

/-- Drops lines that repeat the one before; counts them, or keeps only some, if asked. -/
def uniq : Program := fun args => uniqUsage.checked (fun a => do
  let bad := a.values.findSome? fun v =>
    if (count? v.2).isNone then (uniqNumbers.lookup v.1).map fun w => (v.2, w) else none
  match bad, a.words[2]? with
  | some (text, what), _ => fail 1 ("uniq: " ++ Names.shown text ++ ": invalid number of " ++ what)
  | none, some extra => uniqUsage.refuse ("extra operand " ++ Names.argument extra)
  | none, none => do
    let name := a.words.headD "-"
    match ← source name with
    | .error .isFolder =>
      fail 1 ("uniq: error reading " ++ Names.quoted name ++ ": " ++ OsError.isFolder.reason)
    | .error e => fail 1 ("uniq: " ++ Names.shown name ++ ": " ++ e.reason)
    | .ok s => do
      let groups := alike a (Stream.lines (← whole s))
      let kept := groups.filter fun g =>
        (!(a.has 'd' || a.has 'D') || 1 < g.length) && (!a.has 'u' || g.length = 1)
      let shown := kept.flatMap fun g =>
        let front := if a.has 'c' then (rightAligned 7 g.length ++ " ").toUTF8.toList else []
        if a.has 'D' then g else [front ++ g.headD []]
      match a.words[1]? with
      | none => Sh.emit 1 (.ofLines shown)
      | some target =>
        match (← get).files.write (← Sh.locate target) ⟨(Stream.ofLines shown).start.toArray⟩ with
        | .ok files => modify fun s => { s with files := files }
        | .error e => fail 1 ("uniq: " ++ Names.shown target ++ ": " ++ e.reason))
  (args.map fun arg => match arg.toList with
    | '-' :: c :: cs => if c.isDigit then String.ofList ('-' :: 'f' :: c :: cs) else arg
    | _ => arg)

/-! ### Lines turned round -/

/-- Turns each line round. -/
def rev : Program := (optionless "rev").checked fun a => do
  for name in sources a.words do
    match ← source name with
    | .ok s => do
      let turn := fun (line : List UInt8) =>
        let body := line.filter (· != Stream.newline)
        body.reverse ++ line.drop body.length
      Sh.emit 1 (.ofBytes ((endedLines (← whole s)).flatMap turn))
    | .error .isFolder => throw .overrun
    | .error e => fail 1 ("rev: cannot open " ++ name ++ ": " ++ e.reason)

/-- Writes the lines in the opposite order. -/
def tac : Program :=
  let usage : Usage :=
    { program := "tac", code := 1, letters := "brs:"
      names := [("before", 'b'), ("regex", 'r'), ("separator=", 's')] }
  usage.checked fun a => do
    for name in sources a.words do
      match ← source name with
      | .ok s => do Sh.emit 1 (.ofBytes (endedLines (← whole s)).reverse.flatten)
      | .error .isFolder => fail 1 ("tac: " ++ Names.shown name ++ ": read error: Invalid argument")
      | .error e =>
        fail 1 ("tac: failed to open " ++ Names.quoted name ++ " for reading: " ++ e.reason)

/-! ### Numbers in front of lines -/

/-- The options of `nl`. -/
def nlUsage : Usage where
  program := "nl"
  code := 1
  letters := "h:b:f:v:i:pl:s:w:n:d:"
  names := [("header-numbering=", 'h'), ("body-numbering=", 'b'), ("footer-numbering=", 'f'),
    ("starting-line-number=", 'v'), ("line-increment=", 'i'), ("no-renumber", 'p'),
    ("join-blank-lines=", 'l'), ("number-separator=", 's'), ("number-width=", 'w'),
    ("number-format=", 'n'), ("section-delimiter=", 'd')]

/-- How lines are numbered. -/
structure Numbering where
  /-- Which lines: all, those that are not empty, or none. -/
  style : String
  width : Nat
  between : String
  form : String
  step : Nat

/-- The number of a line. -/
def Numbering.text (n : Numbering) (number : Nat) : String :=
  let digits := Nat.repr number
  match n.form with
  | "ln" => digits ++ String.ofList (List.replicate (n.width - digits.length) ' ')
  | "rz" => zeroFilled n.width digits
  | _ => rightAligned n.width number

/-- Numbers lines. -/
def numbered (n : Numbering) : Nat → List (List UInt8) → List (List UInt8)
  | _, [] => []
  | number, line :: rest =>
    if n.style = "a" || (n.style = "t" && !line.isEmpty) then
      ((n.text number ++ n.between).toUTF8.toList ++ line) :: numbered n (number + n.step) rest
    else
      (List.replicate (n.width + n.between.utf8ByteSize) 32 ++ line) :: numbered n number rest

/-- Numbers lines. -/
def nl : Program := nlUsage.checked fun a => do
  let number := fun (c : Char) (default : Nat) => ((a.value? c).bind count?).getD default
  let n : Numbering :=
    { style := (a.value? 'b').getD "t", width := number 'w' 6, between := (a.value? 's').getD "\t"
      form := (a.value? 'n').getD "rn", step := number 'i' 1 }
  if !(["a", "t", "n"].contains n.style) then
    nlUsage.refuse ("invalid body numbering style: " ++ Names.argument n.style)
  else Sh.emit 1 (.ofLines (numbered n (number 'v' 1) (Stream.lines (← inputOf "nl" 1 a.words))))

end Arbor.Shell.Program
