import Arbor.Shell.Program.Lines

/-! # Programs that work on columns

Parts of lines, lines side by side, lines that are folded, and the lines that two sorted files have
in common. -/

namespace Arbor.Shell.Program

/-! ### Parts of lines -/

/-- A range of numbers, from one on; without an end it has no last number. -/
abbrev Range := Nat × Option Nat

/-- The range that a piece of a list describes. -/
def readRange (fields : Bool) (piece : List Char) : Except String Range := do
  let invalid := fun (text : List Char) =>
    (if fields then "invalid field value " else "invalid byte/character position ") ++
      Names.argument (String.ofList text)
  let fromOne := if fields then "fields are numbered from 1"
    else "byte/character positions are numbered from 1"
  let low := piece.takeWhile Char.isDigit
  match piece.drop low.length with
  | [] =>
    match count? (String.ofList low) with
    | none => .error fromOne
    | some 0 => .error fromOne
    | some n => return (n, some n)
  | '-' :: rest => do
    let high := rest.takeWhile Char.isDigit
    if high.length < rest.length then
      .error (if rest.contains '-' then "invalid field range" else invalid piece)
    match count? (String.ofList low), count? (String.ofList high) with
    | none, none => .error "invalid range with no endpoint: -"
    | some 0, _ => .error fromOne
    | some n, none => return (n, none)
    | low, some n =>
      if n < low.getD 1 then .error "invalid decreasing range" else return (low.getD 1, some n)
  | _ => .error (invalid (piece.dropWhile Char.isDigit))

/-- The ranges of a list, between commas or blanks. -/
def readRanges (fields : Bool) (list : String) : Except String (List Range) :=
  (list.toList.splitOnP fun c => c == ',' || c == ' ' || c == '\t').mapM (readRange fields)

/-- The range holds a number. -/
def inRange (n : Nat) (r : Range) : Bool := r.1 ≤ n && r.2.all fun high => n ≤ high

/-- The number is chosen by ranges, or by their complement. -/
def isChosen (inverted : Bool) (ranges : List Range) (n : Nat) : Bool :=
  ranges.any (inRange n) != inverted

/-- The members of a list whose numbers are chosen, with their numbers. -/
def chosen {α : Type} (inverted : Bool) (ranges : List Range) (xs : List α) : List (α × Nat) :=
  xs.zipIdx.filter fun x => isChosen inverted ranges (x.2 + 1)

/-- A range starts at a number that is chosen: the one before is not, or not by the same range. -/
def startsRange (inverted : Bool) (ranges : List Range) (n : Nat) : Bool :=
  if inverted then !isChosen true ranges (n - 1)
  else !ranges.any fun r => inRange n r && inRange (n - 1) r && 1 < n

/-- The bytes of a line that are chosen, with a text between those of different ranges. -/
def chosenBytes (inverted : Bool) (ranges : List Range) (between : List UInt8) (line : List UInt8) :
    List UInt8 :=
  ((chosen inverted ranges line).zipIdx.map fun x =>
    if x.2 ≠ 0 && startsRange inverted ranges (x.1.2 + 1) then between ++ [x.1.1]
      else [x.1.1]).flatten

/-- The options of `cut`. -/
def cutUsage : Usage where
  program := "cut"
  code := 1
  letters := "b:c:d:f:nsz"
  names := [("bytes=", 'b'), ("characters=", 'c'), ("fields=", 'f'), ("delimiter=", 'd'),
    ("only-delimited", 's'), ("output-delimiter=", 'O'), ("complement", 'C'),
      ("zero-terminated", 'z')]

/-- Keeps bytes or fields of each line. A line without a separator is kept whole. -/
def cut : Program := cutUsage.checked fun a => do
  let lists := a.values.filter fun v => "bcf".toList.contains v.1
  let separator := ((a.value? 'd').map fun s => (s.toUTF8.toList.head?).getD 0).getD 9
  match lists with
  | [] => cutUsage.refuse "you must specify a list of bytes, characters, or fields"
  | _ :: _ :: _ => cutUsage.refuse "only one list may be specified"
  | [(kind, list)] =>
    let fields := kind == 'f'
    match readRanges fields list with
    | .error text => cutUsage.refuse text
    | .ok ranges =>
      if ((a.value? 'd').map fun s => s.utf8ByteSize).any (1 < ·) then
        cutUsage.refuse "the delimiter must be a single character"
      else if !fields && (a.value? 'd').isSome then
        cutUsage.refuse "an input delimiter may be specified only when operating on fields"
      else if !fields && a.has 's' then
        cutUsage.refuse
          "suppressing non-delimited lines makes sense\n\tonly when operating on fields"
      else do
        let lines := Stream.lines (← inputOf "cut" 1 a.words)
        let between := ((a.value? 'O').map fun s => s.toUTF8.toList)
        let inverted := a.has 'C'
        if fields then
          let split := lines.filter fun l => l.contains separator || !a.has 's'
          Sh.emit 1 (.ofLines (split.map fun line =>
            if line.contains separator then
              List.intercalate (between.getD [separator])
                ((chosen inverted ranges (line.splitOn separator)).map Prod.fst)
            else line))
        else Sh.emit 1 (.ofLines (lines.map (chosenBytes inverted ranges (between.getD []))))

/-! ### Lines side by side -/

/-- The bytes that stand between columns, in turn. -/
def glues : List Char → List (List UInt8)
  | '\\' :: 'n' :: rest => [10] :: glues rest
  | '\\' :: 't' :: rest => [9] :: glues rest
  | '\\' :: '0' :: rest => [] :: glues rest
  | '\\' :: c :: rest => [UInt8.ofNat c.toNat] :: glues rest
  | c :: rest => [UInt8.ofNat c.toNat] :: glues rest
  | [] => []

/-- Pieces with glue between them, taken in turn from a place on. -/
def glued (glue : List (List UInt8)) : Nat → List (List UInt8) → List UInt8
  | _, [] => []
  | _, [x] => x
  | i, x :: rest => x ++ (glue[i % glue.length]?).getD [] ++ glued glue (i + 1) rest

/-- The first of every `n` elements. -/
def everyNth {α : Type} (n : Nat) (xs : List α) : List α :=
  (xs.zipIdx.filter fun x => x.2 % n = 0).map Prod.fst

/-- Joins the lines of files side by side, or those of each file to one. Columns that are all read
from the standard input take its lines in turn. -/
def paste : Program :=
  let usage : Usage :=
    { program := "paste", code := 1, letters := "d:sz"
      names := [("delimiters=", 'd'), ("serial", 's'), ("zero-terminated", 'z')] }
  usage.checked fun a => do
    let glue := glues (octetsOf ((a.value? 'd').getD "\t"))
    let names := sources a.words
    let shares := names.count "-"
    let mut columns : List (List (List UInt8)) := []
    let mut shared : List (List UInt8) := []
    let mut turn := 0
    for name in names do
      if name = "-" && !a.has 's' then
        if turn = 0 then shared := Stream.lines (← inputOf "paste" 1 ["-"])
        columns := columns ++ [everyNth shares (shared.drop turn)]
        turn := turn + 1
      else columns := columns ++ [Stream.lines (← inputOf "paste" 1 [name])]
    if a.has 's' then Sh.emit 1 (.ofLines (columns.map (glued glue 0)))
    else if (← get).status = 0 then
      let height := columns.foldl (fun n column => max n column.length) 0
      let rows := (List.range height).map fun i =>
        glued glue 0 (columns.map fun column => (column[i]?).getD [])
      Sh.emit 1 (.ofLines rows)

/-! ### Folding -/

/-- Pieces of a line no wider than a width; with `atBlanks` a piece ends behind its last blank. -/
def foldedLine (atBlanks : Bool) (width : Nat) : Nat → List UInt8 → List (List UInt8)
  | 0, _ => []
  | fuel + 1, line =>
    if line.length ≤ width then [line]
    else
      let first := line.take width
      let short := (first.reverse.dropWhile fun b => !isGap b).reverse
      let piece := if atBlanks && !short.isEmpty then short else first
      piece :: foldedLine atBlanks width fuel (line.drop piece.length)

/-- A number of the form `-12` among options, as the value of another option. -/
def numberAs (letter : Char) (args : List String) : List String :=
  args.map fun arg => match arg.toList with
    | '-' :: c :: cs => if c.isDigit then String.ofList ('-' :: letter :: c :: cs) else arg
    | _ => arg

/-- Folds long lines. -/
def fold : Program :=
  let usage : Usage :=
    { program := "fold", code := 1, letters := "bsw:"
      names := [("bytes", 'b'), ("spaces", 's'), ("width=", 'w')] }
  fun args => usage.checked (fun a => do
    let text := (a.value? 'w').getD "80"
    match count? text with
    | none => fail 1 ("fold: invalid number of columns: " ++ Names.argument text)
    | some 0 => fail 1 ("fold: invalid number of columns: " ++ Names.argument text ++
        ": Numerical result out of range")
    | some width => do
      let bytes ← inputOf "fold" 1 a.words
      let pieces := (endedLines bytes).map fun line =>
        let body := line.filter (· != Stream.newline)
        List.intercalate [Stream.newline] (foldedLine (a.has 's') width (body.length + 1) body) ++
          line.drop body.length
      Sh.emit 1 (.ofBytes pieces.flatten)) (numberAs 'w' args)

/-! ### Tabs -/

/-- Where the next stop of tabs is. -/
def nextStop (stops : List Nat) (column : Nat) : Nat :=
  match stops with
  | [] => (column / 8 + 1) * 8
  | [n] => (column / n + 1) * n
  | stops => (stops.find? fun s => column < s).getD (column + 1)

/-- Blanks in the place of tabs, from a column on. -/
def expandTabs (stops : List Nat) : Nat → List UInt8 → List UInt8
  | _, [] => []
  | column, b :: rest =>
    if b = 9 then
      let next := nextStop stops column
      List.replicate (next - column) 32 ++ expandTabs stops next rest
    else b :: expandTabs stops (if b = Stream.newline then 0 else column + 1) rest

/-- The stops of a list. -/
def stops? (list : String) : Option (List Nat) :=
  (list.toList.splitOnP fun c => c == ',' || c == ' ').mapM fun p => count? (String.ofList p)

/-- Writes blanks in the place of tabs. -/
def expand : Program :=
  let usage : Usage :=
    { program := "expand", code := 1, letters := "it:",
      names := [("initial", 'i'), ("tabs=", 't')] }
  fun args => usage.checked (fun a => do
    let list := a.value? 't'
    match list.map stops? with
    | some none => fail 1 ("expand: tab size contains invalid character(s): " ++
        Names.argument (list.getD ""))
    | stops =>
      let stops := (stops.bind id).getD []
      if stops.contains 0 then fail 1 "expand: tab size cannot be 0"
      else do
        let bytes ← inputOf "expand" 1 a.words
        Sh.emit 1 (.ofBytes (expandTabs stops 0 bytes))) (numberAs 't' args)

/-- A line whose leading blanks are tabs as far as they reach a stop. -/
def leadingTabs (size : Nat) (line : List UInt8) : List UInt8 :=
  let blanks := line.takeWhile isGap
  let width := (expandTabs [size] 0 blanks).length
  List.replicate (width / size) 9 ++ List.replicate (width % size) 32 ++ line.drop blanks.length

/-- Writes tabs in the place of the blanks at the front of lines. -/
def unexpand : Program :=
  let usage : Usage :=
    { program := "unexpand", code := 1, letters := "at:"
      names := [("all", 'a'), ("first-only", 'F'), ("tabs=", 't')] }
  usage.checked fun a => do
    let size := max 1 (((a.value? 't').bind count?).getD 8)
    Sh.emit 1 (.ofBytes ((endedLines (← inputOf "unexpand" 1 a.words)).flatMap (leadingTabs size)))

/-! ### Two sorted files -/

/-- Lines of the first file alone, of the second alone, or of both. -/
def merged : Nat → List (List UInt8) → List (List UInt8) → List (Nat × List UInt8)
  | 0, _, _ => []
  | _, xs, [] => xs.map fun x => (1, x)
  | _, [], ys => ys.map fun y => (2, y)
  | fuel + 1, x :: xs, y :: ys =>
    match byteOrder x y with
    | .lt => (1, x) :: merged fuel xs (y :: ys)
    | .gt => (2, y) :: merged fuel (x :: xs) ys
    | .eq => (3, x) :: merged fuel xs ys

/-- Neighbours that are in the wrong order. -/
def unsorted : List (List UInt8) → Bool
  | x :: y :: rest => byteOrder x y = .gt || unsorted (y :: rest)
  | _ => false

/-- The two files of a program, of which there have to be two. -/
def pairOf (u : Usage) (a : Arguments) (act : List UInt8 → List UInt8 → Sh Unit) : Sh Unit := do
  match a.words with
  | [] => u.refuse "missing operand"
  | [x] => u.refuse ("missing operand after " ++ Names.argument x)
  | _ :: _ :: extra :: _ => u.refuse ("extra operand " ++ Names.argument extra)
  | [x, y] => do
    match ← source x, ← source y with
    | .error e, _ => fail 1 (u.program ++ ": " ++ Names.shown x ++ ": " ++ e.reason)
    | _, .error e => fail 1 (u.program ++ ": " ++ Names.shown y ++ ": " ++ e.reason)
    | .ok s, .ok t => do act (← whole s) (← whole t)

/-- Compares two sorted files line by line. -/
def comm : Program :=
  let usage : Usage :=
    { program := "comm", code := 1, letters := "123z"
      names := [("check-order", 'K'), ("nocheck-order", 'N'), ("output-delimiter=", 'O'),
        ("total", 'T'), ("zero-terminated", 'z')] }
  usage.checked fun a => pairOf usage a fun s t => do
    let xs := Stream.lines s
    let ys := Stream.lines t
    let rows := merged (xs.length + ys.length + 1) xs ys
    let between := ((a.value? 'O').getD "\t").toUTF8.toList
    let shown := rows.filter fun r => !a.has (Nat.digitChar r.1)
    let columns := fun (kind : Nat) =>
      ([1, 2].filter fun n => n < kind && !a.has (Nat.digitChar n)).length
    Sh.emit 1 (.ofLines (shown.map fun r =>
      (List.replicate (columns r.1) between).flatten ++ r.2))
    if !a.has 'N' && xs != ys then
      if unsorted xs then fail 1 "comm: file 1 is not in sorted order"
      if unsorted ys then fail 1 "comm: file 2 is not in sorted order"
      if unsorted xs || unsorted ys then fail 1 "comm: input is not in sorted order"

/-! ### Joining -/

/-- The fields of a line. -/
def fieldsOf (separator : Option UInt8) (line : List UInt8) : List (List UInt8) :=
  match separator with
  | some b => line.splitOn b
  | none => (line.splitOnP isGap).filter fun f => !f.isEmpty

/-- Lines of two files that agree in a field, as one line: the field, then the others. -/
def join : Program :=
  let usage : Usage :=
    { program := "join", code := 1, letters := "a:e:i1:2:j:o:t:v:z"
      names := [("ignore-case", 'i'), ("check-order", 'K'), ("nocheck-order", 'N'),
        ("header", 'H')] }
  usage.checked fun a => pairOf usage a fun s t => do
    let separator := (a.value? 't').bind fun s => s.toUTF8.toList.head?
    let field := fun (c : Char) => (((a.value? c).or (a.value? 'j')).bind count?).getD 1 - 1
    let rows := fun (bytes : List UInt8) (n : Nat) =>
      (Stream.lines bytes).map fun line =>
        let fields := fieldsOf separator line
        ((fields[n]?).getD [], fields.eraseIdx n)
    let xs := rows s (field '1')
    let ys := rows t (field '2')
    let same := fun (x y : List UInt8) =>
      if a.has 'i' then x.map upperByte = y.map upperByte else x = y
    let write := fun (key : List UInt8) (fields : List (List UInt8)) =>
      List.intercalate [separator.getD 32] (key :: fields)
    let unpaired := a.allOf 'a' ++ a.allOf 'v'
    let lonely := fun (n : String) (mine others : List (List UInt8 × List (List UInt8))) =>
      if unpaired.contains n then mine.filter fun x => !others.any fun y => same x.1 y.1 else []
    let pairs := if (a.value? 'v').isSome then [] else
      xs.flatMap fun x => (ys.filter fun y => same x.1 y.1).map fun y => (x.1, x.2 ++ y.2)
    let alone := lonely "1" xs ys ++ lonely "2" ys xs
    let all := if alone.isEmpty then pairs
      else (pairs ++ alone).mergeSort fun x y => bytesLe x.1 y.1
    Sh.emit 1 (.ofLines (all.map fun r => write r.1 r.2))

end Arbor.Shell.Program
