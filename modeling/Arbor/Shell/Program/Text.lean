import Arbor.Shell.Format
import Arbor.Shell.Program.Options

/-! # Programs that read and write text

Whole files, their starts and ends, their sizes, and text that is given by words. -/

namespace Arbor.Shell.Program

/-! ### Whole files -/

/-- What `cat` shows of a byte. -/
def shownByte (tabs others : Bool) (b : UInt8) : List UInt8 :=
  if b = Stream.newline then [b]
  else if b = 9 then if tabs then [94, 73] else [b]
  else if !others then [b]
  else
    let (front, b) := if 128 ≤ b then ([77, 45], b - 128) else ([], b)
    front ++ if b < 32 then [94, b + 64] else if b = 127 then [94, 63] else [b]

/-- The lines of bytes, each with its end if it has one. -/
def endedLines (bytes : List UInt8) : List (List UInt8) :=
  let ls := (Stream.lines bytes).map (· ++ [Stream.newline])
  if bytes.getLast? = some Stream.newline then ls
  else ls.dropLast ++ (ls.getLast?.map List.dropLast).toList

/-- A number of a width. -/
def rightAligned (width n : Nat) : String :=
  let digits := Nat.repr n
  String.ofList (List.replicate (width - digits.length) ' ') ++ digits

/-- Lines without the empty ones that follow an empty one. -/
def withoutGaps : List (List UInt8) → List (List UInt8)
  | a :: b :: rest =>
    if a = [Stream.newline] && b = a then withoutGaps (b :: rest) else a :: withoutGaps (b :: rest)
  | lines => lines

/-- What `cat` shows of lines from a number on: numbers, ends and special bytes, as asked. -/
def decorate (a : Arguments) : Nat → List (List UInt8) → List UInt8
  | _, [] => []
  | n, line :: rest =>
    let blank := line = [Stream.newline]
    let counted := (a.has 'n' && !a.has 'b') || (a.has 'b' && !blank)
    let front := if counted then (rightAligned 6 n ++ "\t").toUTF8.toList else []
    let shown := line.flatMap (shownByte (a.has 'T' || a.has 'A' || a.has 't')
      (a.has 'v' || a.has 'A' || a.has 'e' || a.has 't'))
    let ends := (a.has 'E' || a.has 'A' || a.has 'e') && line.getLast? = some Stream.newline
    front ++ (if ends then shown.dropLast ++ [36, Stream.newline] else shown) ++
      decorate a (if counted then n + 1 else n) rest

/-- The options of `cat`. -/
def catUsage : Usage where
  program := "cat"
  code := 1
  letters := "AbeEnstTuv"
  names := [("show-all", 'A'), ("number-nonblank", 'b'), ("show-ends", 'E'), ("number", 'n'),
    ("squeeze-blank", 's'), ("show-tabs", 'T'), ("show-nonprinting", 'v')]

/-- The file is the one that the standard output leads to, and it is not empty. -/
def isOutput (name : String) : Sh Bool := do
  let s ← get
  match s.sinks.lookup 1, s.files.walk .followed (← Sh.locate name) with
  | some (.file p), .ok loc =>
    return name != "-" && (s.files.walk .followed p).toOption == some loc &&
      ((s.files.read p).toOption.map ByteArray.size).any (0 < ·)
  | _, _ => return false

/-- Joins its files. -/
def cat : Program := catUsage.checked fun a => do
  let mut all : List UInt8 := []
  for name in sources a.words do
    if ← isOutput name then fail 1 ("cat: " ++ Names.shown name ++ ": input file is output file")
    else
      match ← source name with
      | .ok s => if a.letters.isEmpty then Sh.emit 1 s else all := all ++ (← whole s)
      | .error e => fail 1 ("cat: " ++ Names.shown name ++ ": " ++ e.reason)
  let lines := endedLines all
  Sh.emit 1 (.ofBytes (decorate a 1 (if a.has 's' then withoutGaps lines else lines)))

/-! ### Starts and ends of files -/

/-- How much of a file is wanted. -/
structure Amount where
  /-- The count is of bytes and not of lines. -/
  ofBytes : Bool
  count : Nat
  /-- The sign in front of the number. -/
  sign : Option Char

/-- The factor of a unit behind a number. -/
def unit? (cs : List Char) : Option Nat :=
  let power := fun (c : Char) => ("KMGTPEZY".toList.idxOf? c.toUpper).map (· + 1)
  match cs with
  | [] => some 1
  | ['b'] => some 512
  | [c] => (power c).map (Nat.pow 1024)
  | [c, 'B'] => (power c).map (Nat.pow 1000)
  | [c, 'i', 'B'] => (power c).map (Nat.pow 1024)
  | _ => none

/-- The number of a text, with a unit behind it. -/
def quantity? (cs : List Char) : Option Nat :=
  let digits := cs.takeWhile Char.isDigit
  match count? (String.ofList digits), unit? (cs.drop digits.length) with
  | some n, some u => some (n * u)
  | _, _ => none

/-- The amount that a text asks for. -/
def amountOf? (ofBytes : Bool) (s : String) : Option Amount :=
  match s.toList with
  | '-' :: n => (quantity? n).map fun n => ⟨ofBytes, n, some '-'⟩
  | '+' :: n => (quantity? n).map fun n => ⟨ofBytes, n, some '+'⟩
  | n => (quantity? n).map fun n => ⟨ofBytes, n, none⟩

/-- The amount that arguments ask for, ten lines if they do not say. -/
def amount (a : Arguments) : Except String Amount :=
  match a.lastOf "cn" with
  | none => .ok ⟨false, 10, none⟩
  | some (c, text) =>
    match amountOf? (c == 'c') text with
    | some n => .ok n
    | none => .error ("invalid number of " ++ (if c == 'c' then "bytes" else "lines") ++ ": " ++
        Names.argument text)

/-- The start of a stream; with a minus, all but the end. -/
def front (a : Amount) (s : Stream) : Sh (List UInt8) := do
  match a.ofBytes, a.sign with
  | true, some '-' =>
    let bytes ← whole s
    return bytes.take (bytes.length - a.count)
  | true, _ => return s.take a.count
  | false, some '-' =>
    let bytes ← whole s
    return Stream.firstLines ((Stream.lines bytes).length - a.count) bytes
  | false, _ =>
    match s.takeLines? a.count with
    | some bytes => return bytes
    | none => throw .overrun

/-- The end of a stream; with a plus, all from that place on. -/
def back (a : Amount) (s : Stream) : Sh (List UInt8) := do
  let bytes ← whole s
  match a.ofBytes, a.sign with
  | true, some '+' => return bytes.drop (a.count - 1)
  | true, _ => return bytes.drop (bytes.length - a.count)
  | false, some '+' => return bytes.drop (Stream.firstLines (a.count - 1) bytes).length
  | false, _ =>
    let total := (Stream.lines bytes).length
    return bytes.drop (Stream.firstLines (total - a.count) bytes).length

/-- The options of `head` and `tail`. -/
def partUsage (program letters : String) : Usage where
  program := program
  code := 1
  letters := letters
  names := [("bytes=", 'c'), ("lines=", 'n'), ("quiet", 'q'), ("silent", 'q'), ("verbose", 'v'),
    ("zero-terminated", 'z')]

/-- A file could be opened, which does not mean that it can be read. -/
def opened : Except OsError Stream → Bool
  | .ok _ => true
  | .error e => e = .isFolder

/-- Writes a part of each file, under the name of the file if there are several. -/
def partOf (program : String) (part : Amount → Stream → Sh (List UInt8)) (a : Arguments) :
    Sh Unit := do
  match amount a with
  | .error text => fail 1 (program ++ ": " ++ text)
  | .ok wanted => do
    let titled := (1 < a.words.length && !a.has 'q') || a.has 'v'
    let mut first := true
    for name in sources a.words do
      let content ← source name
      let title := if name = "-" then "standard input" else name
      if titled && opened content then
        Sh.say ((if first then "" else "\n") ++ "==> " ++ title ++ " <==\n")
        first := false
      match content with
      | .ok s => do
        let bytes ← part wanted s
        if program = "head" && name = "-" then Sh.giveBack ⟨s.start.drop bytes.length, s.cycle⟩
        Sh.emit 1 (.ofBytes bytes)
      | .error .isFolder =>
        fail 1 (program ++ ": error reading " ++ Names.quoted name ++ ": " ++
          OsError.isFolder.reason)
      | .error e =>
        fail 1 (program ++ ": cannot open " ++ Names.quoted name ++ " for reading: " ++ e.reason)

/-- The first argument of `head` as it would be written today: a number as an option is a number of
lines, or of bytes with a `c` behind it. -/
def headArguments : List String → Except Char (List String)
  | arg :: rest =>
    match arg.toList with
    | '-' :: cs =>
      let digits := cs.takeWhile Char.isDigit
      let behind := cs.drop digits.length
      if digits.isEmpty then .ok (arg :: rest)
      else
        match behind.find? fun c => !"cqvlz".toList.contains c with
        | some c => .error c
        | none =>
          let flags := behind.filter fun c => c == 'q' || c == 'v'
          let counted := (if behind.contains 'c' then "-c" else "-n") ++ String.ofList digits
          .ok (counted :: (if flags.isEmpty then rest else String.ofList ('-' :: flags) :: rest))
    | _ => .ok (arg :: rest)
  | [] => .ok []

/-- The first lines or bytes. -/
def head : Program := fun args =>
  let usage := partUsage "head" "c:n:qvz"
  match headArguments args with
  | .error c => usage.refuse ("invalid trailing option -- " ++ c.toString)
  | .ok args => usage.checked (partOf "head" front) args

/-- The first argument of `tail` as it would be written today. -/
def tailArguments (args : List String) : List String :=
  match args with
  | arg :: rest =>
    match arg.toList with
    | sign :: cs =>
      let digits := cs.takeWhile Char.isDigit
      let behind := cs.drop digits.length
      if (sign == '+' || sign == '-') && rest.length ≤ 1 && !digits.isEmpty &&
          (behind.isEmpty || behind == ['c'] || behind == ['l']) then
        ((if behind == ['c'] then "-c" else "-n") ++ String.ofList (sign :: digits)) :: rest
      else args
    | [] => args
  | [] => []

/-- The last lines or bytes. -/
def tail : Program := fun args =>
  let usage := partUsage "tail" "c:n:fFqs:vz"
  let args := tailArguments args
  match usage.read args with
  | .error (.letter c) =>
    if c.isDigit then fail 1 ("tail: option used in invalid context -- " ++ c.toString)
    else usage.checked (fun _ => pure ()) args
  | _ => usage.checked (partOf "tail" back) args

/-! ### Sizes -/

/-- The byte is a blank. -/
def isBlankByte (b : UInt8) : Bool := b = 32 || (9 ≤ b && b ≤ 13)

/-- The number of words: pieces between blanks that hold something that can be shown. -/
def wordCount (bytes : List UInt8) : Nat :=
  ((bytes.splitOnP isBlankByte).filter fun w => w.any fun b => 32 < b && b < 127).length

/-- How wide a line is when it is shown, from a column on. -/
def lineWidth : Nat → List UInt8 → Nat
  | column, [] => column
  | column, b :: rest =>
    lineWidth (if b = 9 then column / 8 * 8 + 8 else if 32 ≤ b && b < 127 then column + 1
      else column) rest

/-- The counts that options ask for. -/
def counts (letters : List Char) (bytes : List UInt8) : List Nat :=
  let wanted := if letters.isEmpty then ['l', 'w', 'c'] else letters
  (if wanted.contains 'l' then [bytes.count Stream.newline] else []) ++
    (if wanted.contains 'w' then [wordCount bytes] else []) ++
    (if wanted.contains 'm' then [bytes.length] else []) ++
    (if wanted.contains 'c' then [bytes.length] else []) ++
    (if wanted.contains 'L' then [((Stream.lines bytes).map (lineWidth 0)).foldl max 0] else [])

/-- Counts that are added, but for the width, of which the greater is taken. -/
def addCounts (letters : List Char) (xs ys : List Nat) : List Nat :=
  let sums := xs.zipWith (· + ·) ys
  if letters.contains 'L' then sums.dropLast ++ [max (xs.getLast?.getD 0) (ys.getLast?.getD 0)]
  else sums

/-- One line of counts. -/
def countLine (width : Nat) (numbers : List Nat) (name : String) : String :=
  String.intercalate " " (numbers.map (rightAligned width)) ++
    (if name.isEmpty then "" else " " ++ name) ++ "\n"

/-- The options of `wc`. -/
def wcUsage : Usage where
  program := "wc"
  code := 1
  letters := "clLmw"
  names := [("bytes", 'c'), ("chars", 'm'), ("lines", 'l'), ("max-line-length", 'L'),
    ("words", 'w')]

/-- Counts lines, words and bytes. -/
def wc : Program := wcUsage.checked fun a => do
  let inputIsFile := (← Sh.input).isFile
  let mut rows : List (List Nat × String) := []
  let mut total := 0
  let mut plain := true
  for name in sources a.words do
    let title := if a.words.isEmpty then "" else name
    if name.isEmpty then fail 1 "wc: invalid zero-length file name"
    else
      if name = "-" && !inputIsFile then plain := false
      match ← source name with
      | .ok s => do
        let bytes ← whole s
        if name.startsWith "/dev/" then plain := false
        total := total + bytes.length
        rows := rows ++ [(counts a.letters bytes, title)]
      | .error e => do
        fail 1 ("wc: " ++ Names.shown name ++ ": " ++ e.reason)
        if e = .isFolder then
          plain := false
          rows := rows ++ [(counts a.letters [], title)]
  let several := 1 < a.words.length
  let single := (counts a.letters []).length = 1 && !several
  let width := if single then 1 else max (Nat.repr total).length (if plain then 1 else 7)
  for r in rows do
    Sh.say (countLine width r.1 r.2)
  if several then
    Sh.say (countLine width (rows.foldl (fun n r => addCounts a.letters n r.1)
      ((counts a.letters []).map fun _ => 0)) "total")

/-! ### Text from words -/

/-- Writes a line for ever. -/
def yes : Program := ({ optionless "yes" with ordered := true } : Usage).checked fun a => do
  let line := if a.words.isEmpty then "y" else String.intercalate " " a.words
  Sh.emit 1 ⟨[], (line ++ "\n").toUTF8.toList⟩

/-- The options of `tee`. -/
def teeUsage : Usage where
  program := "tee"
  code := 1
  letters := "aip"
  names := [("append", 'a'), ("ignore-interrupts", 'i')]

/-- Copies its input to files and to the standard output. -/
def tee : Program := teeUsage.checked fun a => do
  let bytes ← whole (← Sh.takeInput)
  for name in a.words do
    let p ← Sh.locate name
    let fs := (← get).files
    let old := if a.has 'a' then ((fs.read p).toOption.map ByteArray.toList).getD [] else []
    match fs.write p ⟨(old ++ bytes).toArray⟩ with
    | .ok files => modify fun s => { s with files := files }
    | .error e => fail 1 ("tee: " ++ Names.shown name ++ ": " ++ e.reason)
  Sh.emit 1 (.ofBytes bytes)

/-- The options in front of the words of `echo`: no line end, escapes, and the words. -/
def echoOptions (bare escapes : Bool) : List String → Bool × Bool × List String
  | "-n" :: rest => echoOptions true escapes rest
  | "-e" :: rest => echoOptions bare true rest
  | "-E" :: rest => echoOptions bare false rest
  | words => (bare, escapes, words)

/-- Text with escapes only on demand, as the program and not the shell writes it. -/
def plainEcho : Program := fun args => do
  let (bare, escapes, words) := echoOptions false false args
  let line := String.intercalate " " words
  let (bytes, ended) := if escapes then Format.escaped line else (line.toUTF8.toList, false)
  Sh.emit 1 (.ofBytes (bytes ++ if bare || ended then [] else [Stream.newline]))
  Sh.finish 0

/-- Text with its escapes, as the shell writes it. -/
def echo : Program := fun args => do
  let (bare, words) := match args with
    | "-n" :: rest => (true, rest)
    | words => (false, words)
  let (bytes, ended) := Format.escaped (String.intercalate " " words)
  Sh.emit 1 (.ofBytes (bytes ++ if bare || ended then [] else [Stream.newline]))
  Sh.finish 0

/-- What the shell says of an argument that does not fit. -/
def misfitText : Format.Misfit → String
  | .notNumber => "expected numeric value"
  | .partly => "not completely converted"
  | .outOfRange => "Numerical result out of range"

/-- Writes words by a format, as the shell does it. -/
def printfWords : Program := fun args => do
  let out := Format.render (args.headD "") (args.drop 1)
  Sh.emit 1 (.ofBytes out.bytes)
  for (arg, misfit) in out.misfits do
    Sh.report ("printf: " ++ arg ++ ": " ++ misfitText misfit)
  match out.fault with
  | some text => do
    Sh.report ("printf: " ++ text)
    Sh.finish 2
  | none => Sh.finish (if out.misfits.isEmpty then 0 else 1)

/-- Formatted text, as the shell writes it. Nothing that starts like an option is a format. -/
def printf : Program := fun args => do
  let words := if args.head? = some "--" then args.drop 1 else args
  match args.headD "" |>.toList, words with
  | _, [] => do
    Sh.report "printf: usage: printf format [arg ...]"
    Sh.finish 2
  | '-' :: letter :: _, _ =>
    if words.length < args.length then printfWords words
    else do
      Sh.report ("printf: Illegal option -" ++ letter.toString)
      Sh.finish 2
  | _, _ => printfWords words

/-- What the program says of an argument that does not fit. -/
def misfitNote : Format.Misfit → String
  | .notNumber => "expected a numeric value"
  | .partly => "value not completely converted"
  | .outOfRange => "Numerical result out of range"

/-- Formatted text, as the program and not the shell writes it. -/
def plainPrintf : Program := fun args => do
  match if args.head? = some "--" then args.drop 1 else args with
  | [] => lacking "printf" "operand"
  | format :: words => do
    let out := Format.render format words
    Sh.emit 1 (.ofBytes out.bytes)
    for (arg, misfit) in out.misfits do
      Sh.complain ("printf: " ++ Names.argument arg ++ ": " ++ misfitNote misfit)
    if out.fault.isSome then
      Sh.complain "printf: %: invalid conversion specification"
    Sh.finish (if out.misfits.isEmpty && out.fault.isNone then 0 else 1)

/-- Waits. -/
def sleep : Program := (optionless "sleep").checked fun a => do
  if a.words.contains "infinity" then throw .overrun
  let bad := a.words.filter fun w => (span? w).isNone
  if a.words.isEmpty then lacking "sleep" "operand"
  else if bad.isEmpty then Sh.pass ((a.words.filterMap span?).foldl (· + ·) 0)
  else do
    for word in bad.dropLast do
      Sh.complain ("sleep: invalid time interval " ++ Names.argument word)
    (optionless "sleep").refuse ("invalid time interval " ++ Names.argument (bad.getLast?.getD ""))

end Arbor.Shell.Program
