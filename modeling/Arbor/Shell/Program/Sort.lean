import Arbor.Shell.Program.Text

/-! # Sorting lines

A line is compared by its keys, each a part of the line with its own way to compare; what they leave
open is settled by the whole line. -/

namespace Arbor.Shell.Program

/-- The order of bytes. -/
def bytesLe : List UInt8 → List UInt8 → Bool
  | [], _ => true
  | _ :: _, [] => false
  | a :: as, b :: bs => a < b || (a = b && bytesLe as bs)

/-- Which of two lists of bytes comes first. -/
def byteOrder (a b : List UInt8) : Ordering :=
  if a = b then .eq else if bytesLe a b then .lt else .gt

/-- Which of two numbers is the smaller. -/
def intOrder (a b : Int) : Ordering := if a = b then .eq else if a < b then .lt else .gt

/-- The byte stands between fields. -/
def isGap (b : UInt8) : Bool := b = 32 || b = 9

/-- A byte as it is compared without regard to case. -/
def upperByte (b : UInt8) : UInt8 := if 97 ≤ b && b ≤ 122 then b - 32 else b

/-! ### Numbers in lines -/

/-- The digits at the front. -/
def frontDigits (bytes : List UInt8) : List UInt8 := bytes.takeWhile fun b => 48 ≤ b && b ≤ 57

/-- The number of digits. -/
def digitsValue (digits : List UInt8) : Int :=
  (digits.foldl (fun n b => 10 * n + (b.toNat - 48)) 0 : Nat)

/-- The decimal at the front of a line, zero if there is none, and what is behind. -/
def frontDecimal (bytes : List UInt8) : Decimal × List UInt8 :=
  let cs := bytes.dropWhile isGap
  let (negative, cs) := if cs.head? = some 45 then (true, cs.drop 1) else (false, cs)
  let whole := frontDigits cs
  let behind := cs.drop whole.length
  let (places, rest) := if behind.head? = some 46 then
      let places := frontDigits (behind.drop 1)
      (places, behind.drop (places.length + 1))
    else ([], behind)
  let value := digitsValue (whole ++ places)
  (⟨if negative then -value else value, places.length⟩, rest)

/-- The power of a unit behind a number. -/
def unitPower (rest : List UInt8) : Nat :=
  match rest with
  | b :: _ => (("KMGTPEZY".toUTF8.toList.idxOf? (upperByte b)).map (· + 1)).getD 0
  | [] => 0

/-- The number of a month by its first letters, zero if it is none. -/
def monthOf (bytes : List UInt8) : Int :=
  let name := ((bytes.dropWhile isGap).take 3).map upperByte
  let names := ["JAN", "FEB", "MAR", "APR", "MAY", "JUN", "JUL", "AUG", "SEP", "OCT", "NOV", "DEC"]
  (((names.idxOf? (String.ofList (octets name))).map (· + 1)).getD 0 : Nat)

/-- The number at the front of a line, with an exponent if there is one. -/
def frontReal (bytes : List UInt8) : Option Decimal :=
  (Decimal.read? (octets (bytes.dropWhile isBlankByte))).map Prod.fst

/-- Which of two texts comes first if runs of digits count as numbers. -/
def versionOrder : Nat → List UInt8 → List UInt8 → Ordering
  | 0, _, _ => .eq
  | _, [], [] => .eq
  | _, [], _ => .lt
  | _, _, [] => .gt
  | fuel + 1, a :: as, b :: bs =>
    let x := frontDigits (a :: as)
    let y := frontDigits (b :: bs)
    if x.isEmpty || y.isEmpty then
      if a = b then versionOrder fuel as bs else byteOrder [a] [b]
    else
      match intOrder (digitsValue x) (digitsValue y) with
      | .eq => versionOrder fuel ((a :: as).drop x.length) ((b :: bs).drop y.length)
      | order => order

/-! ### Keys -/

/-- How a part of a line is compared: letters as the options are called. -/
structure Key where
  startField : Nat
  startPlace : Nat
  /-- The last field, and the last place in it, where zero is its end. -/
  stop : Option (Nat × Nat)
  letters : List Char
  /-- Blanks in front of the start or the end are skipped. -/
  skipsStart : Bool
  skipsStop : Bool

/-- A line behind a number of fields. -/
def behindFields (separator : Option UInt8) : Nat → List UInt8 → List UInt8
  | 0, line => line
  | n + 1, line =>
    match separator with
    | some b => behindFields separator n ((line.dropWhile (· != b)).drop 1)
    | none => behindFields separator n ((line.dropWhile isGap).dropWhile fun b => !isGap b)

/-- How much of a line lies before the end of its field `n`. -/
def fieldEnd (separator : Option UInt8) (n : Nat) (line : List UInt8) : Nat :=
  let before := behindFields separator (n - 1) line
  let rest := match separator with
    | some b => before.dropWhile (· != b)
    | none => (before.dropWhile isGap).dropWhile fun b => !isGap b
  line.length - rest.length

/-- The part of a line that a key names. -/
def Key.part (separator : Option UInt8) (k : Key) (line : List UInt8) : List UInt8 :=
  let start := behindFields separator (k.startField - 1) line
  let start := if k.skipsStart then start.dropWhile isGap else start
  let start := start.drop (k.startPlace - 1)
  let first := line.length - start.length
  match k.stop with
  | none => start
  | some (field, 0) => start.take (fieldEnd separator field line - first)
  | some (field, place) =>
    let before := behindFields separator (field - 1) line
    let before := if k.skipsStop then before.dropWhile isGap else before
    start.take (line.length - before.length + min place before.length - first)

/-- Which of two parts comes first. -/
def orderBy (letters : List Char) (a b : List UInt8) : Ordering :=
  let has := fun (c : Char) => letters.contains c
  if has 'n' then (frontDecimal a).1.order (frontDecimal b).1
  else if has 'h' then
    let sized := fun (x : List UInt8) =>
      let (d, rest) := frontDecimal x
      let power : Int := unitPower rest
      (if d.value < 0 then -power else if d.value = 0 then 0 else power, d)
    match intOrder (sized a).1 (sized b).1 with
    | .eq => (sized a).2.order (sized b).2
    | order => order
  else if has 'g' then
    match frontReal a, frontReal b with
    | some x, some y => x.order y
    | none, some _ => .lt
    | some _, none => .gt
    | none, none => .eq
  else if has 'M' then intOrder (monthOf a) (monthOf b)
  else
    let kept := fun (b : UInt8) =>
      let c := Char.ofNat b.toNat
      (!has 'd' || c.isAlphanum || isGap b) && (!has 'i' || Names.isShown c)
    let text := fun (x : List UInt8) =>
      let x := x.filter kept
      if has 'f' then x.map upperByte else x
    if has 'V' then versionOrder (a.length + b.length + 1) (text a) (text b)
    else byteOrder (text a) (text b)

/-- How lines are sorted. -/
structure Order where
  keys : List Key
  separator : Option UInt8
  reversed : Bool
  /-- Lines whose keys are equal are left as they stand. -/
  stable : Bool
  /-- Of lines whose keys are equal only the first is kept. -/
  unique : Bool

/-- The other way round, if asked. -/
def turned (reversed : Bool) (o : Ordering) : Ordering := if reversed then o.swap else o

/-- Which of two lines comes first by some keys. -/
def Order.byKeys (o : Order) (a b : List UInt8) : List Key → Ordering
  | [] => .eq
  | k :: more =>
    match orderBy k.letters (k.part o.separator a) (k.part o.separator b) with
    | .eq => o.byKeys a b more
    | order => turned (k.letters.contains 'r') order

/-- Which of two lines comes first. -/
def Order.order (o : Order) (a b : List UInt8) : Ordering :=
  match o.byKeys a b o.keys with
  | .eq =>
    if o.keys.isEmpty || !(o.stable || o.unique) then turned o.reversed (byteOrder a b) else .eq
  | order => order

/-- A line comes before another, or is equal to it. -/
def Order.le (o : Order) (a b : List UInt8) : Bool := o.order a b != .gt

/-! ### Arguments -/

/-- A field and a place as they are written, and what is behind; `what` names the number that comes
first. -/
def readPosition (spec what : String) (cs : List Char) :
    Except String (Nat × Option Nat × List Char) := do
  let bad := fun (text : String) => text ++ ": invalid field specification " ++ Names.argument spec
  let number := fun (what : String) (cs : List Char) =>
    let digits := cs.takeWhile Char.isDigit
    match count? (String.ofList digits) with
    | some n => (Except.ok (n, cs.drop digits.length) : Except String (Nat × List Char))
    | none => .error (what ++ ": invalid count at start of " ++ Names.argument (String.ofList cs))
  let (field, rest) ← number what cs
  if field = 0 then .error (bad "field number is zero")
  match rest with
  | '.' :: rest => do
    let (place, rest) ← number "invalid number after '.'" rest
    return (field, some place, rest)
  | rest => return (field, none, rest)

/-- The letters that may stand behind a position. -/
def keyLetters : List Char := "bdfgiMnRrhV".toList

/-- The key that a text describes. -/
def readKey (spec : String) : Except String Key := do
  let bad := fun (text : String) => text ++ ": invalid field specification " ++ Names.argument spec
  let (field, place, rest) ← readPosition spec "invalid number at field start" spec.toList
  if place = some 0 then .error (bad "character offset is zero")
  let before := rest.takeWhile keyLetters.contains
  let rest := rest.drop before.length
  let key : Key := { startField := field, startPlace := place.getD 1, stop := none
                     letters := before.filter (· != 'b'), skipsStart := before.contains 'b'
                     skipsStop := false }
  match rest with
  | [] => return key
  | ',' :: rest => do
    let (field, place, rest) ← readPosition spec "invalid number after ','" rest
    let behind := rest.takeWhile keyLetters.contains
    if behind.length < rest.length then .error (bad "stray character in field spec")
    return { key with
      stop := some (field, place.getD 0)
      letters := key.letters ++ behind.filter (· != 'b')
      skipsStop := behind.contains 'b' }
  | _ => .error (bad "stray character in field spec")

/-- The options of `sort`. -/
def sortUsage : Usage where
  program := "sort"
  code := 2
  letters := "bcCdfghik:mMno:rRsS:t:T:uVz"
  names := [("ignore-leading-blanks", 'b'), ("dictionary-order", 'd'), ("ignore-case", 'f'),
    ("general-numeric-sort", 'g'), ("human-numeric-sort", 'h'), ("ignore-nonprinting", 'i'),
    ("key=", 'k'), ("merge", 'm'), ("month-sort", 'M'), ("numeric-sort", 'n'), ("output=", 'o'),
    ("random-sort", 'R'), ("reverse", 'r'), ("stable", 's'), ("field-separator=", 't'),
    ("unique", 'u'), ("version-sort", 'V'), ("zero-terminated", 'z')]

/-- The letters of options that say how to compare and that do not go together. -/
def clash? (letters : List Char) : Option String :=
  let numeric := "ghnM".toList.filter letters.contains
  let texts := "di".toList.filter letters.contains
  if 1 < numeric.length || (!numeric.isEmpty && !texts.isEmpty) then
    some (String.ofList (("dfghiMnRV".toList).filter fun c =>
      letters.contains c && (numeric.contains c || texts.contains c)))
  else none

/-- The order that arguments ask for. Keys without letters of their own take those of all. -/
def orderOf (a : Arguments) : Except String Order := do
  let keys ← (a.allOf 'k').mapM readKey
  let separator ← match a.value? 't' with
    | none => pure none
    | some t =>
      match octetsOf t with
      | [] => .error "empty tab"
      | [c] => pure (some (UInt8.ofNat c.toNat))
      | ['\\', '0'] => pure (some 0)
      | _ => .error ("multi-character tab " ++ Names.argument t)
  let shared := a.letters.filter keyLetters.contains
  let common := shared.filter (· != 'b')
  let whole : Key := { startField := 1, startPlace := 1, stop := none, letters := common
                       skipsStart := a.has 'b', skipsStop := a.has 'b' }
  let filled := keys.map fun k =>
    if k.letters.isEmpty && !k.skipsStart && !k.skipsStop then
      { k with letters := common, skipsStart := a.has 'b', skipsStop := a.has 'b' }
    else k
  let keys := if !filled.isEmpty then filled
    else if shared.any (· != 'r') then [whole] else []
  match keys.findSome? fun k => clash? k.letters with
  | some letters => .error ("options '-" ++ letters ++ "' are incompatible")
  | none => pure ()
  return { keys := keys, separator := separator, reversed := a.has 'r', stable := a.has 's'
           unique := a.has 'u' }

/-! ### The program -/

/-- The first line that stands behind one it should not stand behind, with its number. -/
def disorder? (o : Order) : Nat → List (List UInt8) → Option (Nat × List UInt8)
  | n, a :: b :: rest =>
    let order := o.order a b
    if order = .gt || (o.unique && order = .eq) then some (n + 1, b)
      else disorder? o (n + 1) (b :: rest)
  | _, _ => none

/-- Lines without those that are equal to the one before. -/
def withoutEqual (o : Order) : List (List UInt8) → List (List UInt8)
  | a :: b :: rest =>
    if o.order a b = .eq then withoutEqual o (a :: rest) else a :: withoutEqual o (b :: rest)
  | lines => lines
  termination_by lines => lines.length

/-- Says that a file cannot be read. -/
def unsortable (verb name : String) (e : OsError) : Sh Unit :=
  fail 2 ("sort: " ++ (if e = .isFolder then "read failed" else verb) ++ ": " ++ Names.shown name ++
    ": " ++ e.reason)

/-- Tells whether the lines of a file are sorted. -/
def checkSorted (a : Arguments) (o : Order) : Sh Unit := do
  match a.words with
  | _ :: extra :: _ =>
    fail 2 ("sort: extra operand " ++ Names.argument extra ++ " not allowed with -" ++
      if a.has 'c' then "c" else "C")
  | words => do
    let name := words.headD "-"
    match ← source name with
    | .error e => unsortable "open failed" name e
    | .ok s =>
      match disorder? o 1 (Stream.lines (← whole s)) with
      | none => pure ()
      | some (n, line) =>
        if a.has 'c' then
          Sh.emit 2 (.ofBytes (("sort: " ++ name ++ ":" ++ Nat.repr n ++
            ": disorder: ").toUTF8.toList ++
            line ++ [Stream.newline]))
        Sh.finish 1

/-- Sorts lines. -/
def sort : Program := sortUsage.checked fun a => do
  match orderOf a with
  | .error text => fail 2 ("sort: " ++ text)
  | .ok o =>
    if a.has 'c' || a.has 'C' then checkSorted a o
    else do
      let mut lines : List (List UInt8) := []
      for name in sources a.words do
        if (← get).status = 0 then
          match ← source name with
          | .ok s => lines := lines ++ Stream.lines (← whole s)
          | .error e => unsortable "cannot read" name e
      if (← get).status = 0 then
        let sorted := lines.mergeSort o.le
        let out := Stream.ofLines (if o.unique then withoutEqual o sorted else sorted)
        match a.value? 'o' with
        | none => Sh.emit 1 out
        | some name =>
          match (← get).files.write (← Sh.locate name) ⟨out.start.toArray⟩ with
          | .ok files => modify fun s => { s with files := files }
          | .error e => fail 2 ("sort: open failed: " ++ Names.shown name ++ ": " ++ e.reason)

end Arbor.Shell.Program
