import Arbor.Shell.Program.Text

/-! # Programs that work on bytes -/

namespace Arbor.Shell.Program

/-- A text of a width, to the right. -/
def toRight (width : Nat) (s : String) : String :=
  String.ofList (List.replicate (width - s.length) ' ') ++ s

/-- The digits of a number in a base, with zeros in front up to a width. -/
def digitsOf (base width n : Nat) : String :=
  let digits := Nat.toDigits base n
  String.ofList (List.replicate (width - digits.length) '0' ++ digits)

/-! ### Bytes as numbers -/

/-- A byte as a character. -/
def asCharacter (b : UInt8) : String :=
  match b.toNat with
  | 0 => "\\0"
  | 7 => "\\a"
  | 8 => "\\b"
  | 9 => "\\t"
  | 10 => "\\n"
  | 11 => "\\v"
  | 12 => "\\f"
  | 13 => "\\r"
  | n => if 32 ≤ n && n < 127 then String.singleton (Char.ofNat n) else digitsOf 8 3 n

/-- The names of the bytes that are not letters or signs. -/
def controlNames : List String :=
  ["nul", "soh", "stx", "etx", "eot", "enq", "ack", "bel", "bs", "ht", "nl", "vt", "ff", "cr", "so",
    "si", "dle", "dc1", "dc2", "dc3", "dc4", "nak", "syn", "etb", "can", "em", "sub", "esc", "fs",
    "gs", "rs", "us", "sp"]

/-- A byte by its name. -/
def asName (b : UInt8) : String :=
  let n := b.toNat % 128
  if n = 127 then "del" else (controlNames[n]?).getD (String.singleton (Char.ofNat n))

/-- A form in which bytes are shown: how many belong together, how wide they are, and their text. -/
structure Form where
  size : Nat
  width : Nat
  text : List UInt8 → String
  /-- The bytes stand as characters at the end of the row. -/
  shown : Bool := false

/-- The number of bytes, the last one first. -/
def wordOf (bytes : List UInt8) : Nat := bytes.foldr (fun b n => n * 256 + b.toNat) 0

/-- The widths of numbers of one, two, four and eight bytes. -/
def widthOf (letter : Char) (size : Nat) : Nat :=
  match letter, size with
  | 'x', n => 2 * n
  | 'o', 1 => 3
  | 'o', 2 => 6
  | 'o', 4 => 11
  | 'o', _ => 22
  | 'u', 1 => 3
  | 'u', 2 => 5
  | 'u', 4 => 10
  | 'u', _ => 20
  | _, 1 => 4
  | _, 2 => 6
  | _, 4 => 11
  | _, _ => 20

/-- The form of numbers. -/
def numberForm (letter : Char) (size : Nat) : Form where
  size := size
  width := widthOf letter size
  text bytes :=
    let n := wordOf bytes
    match letter with
    | 'x' => digitsOf 16 (widthOf 'x' size) n
    | 'o' => digitsOf 8 (widthOf 'o' size) n
    | 'u' => Nat.repr n
    | _ =>
      let bound := Nat.pow 256 size
      if bound ≤ 2 * n then "-" ++ Nat.repr (bound - n) else Nat.repr n

/-- The forms that a text names. -/
def formsOf (text : String) : Nat → List Char → Except String (List Form)
  | 0, _ => .ok []
  | _ + 1, [] => .ok []
  | fuel + 1, c :: rest => do
    let digits := rest.takeWhile Char.isDigit
    let named := match rest.head? with
      | some 'C' => some 1
      | some 'S' => some 2
      | some 'I' => some 4
      | some 'L' => some 8
      | _ => none
    let behind := if named.isSome then rest.drop 1 else rest.drop digits.length
    let (form, behind) ← match c with
      | 'c' => pure ((⟨1, 3, fun b => asCharacter (b.headD 0), false⟩ : Form), rest)
      | 'a' => pure (⟨1, 3, fun b => asName (b.headD 0), false⟩, rest)
      | 'x' | 'o' | 'u' | 'd' =>
        pure (numberForm c ((named.or (count? (String.ofList digits))).getD 4), behind)
      | c => .error ("invalid character '" ++ c.toString ++ "' in type string " ++
          Names.argument text)
    let (form, behind) :=
      if behind.head? = some 'z' then ({ form with shown := true }, behind.drop 1)
      else (form, behind)
    return form :: (← formsOf text fuel behind)

/-- Lists of at most `size` members each. -/
def chunks {α : Type} (size : Nat) : Nat → List α → List (List α)
  | 0, _ => []
  | _, [] => []
  | fuel + 1, xs => xs.take size :: chunks size fuel (xs.drop size)

/-- Bytes in a form, as one row. With several forms the columns are as wide as the widest. -/
def dumpRow (perByte width : Nat) (form : Form) (bytes : List UInt8) : String :=
  let words := chunks form.size (bytes.length + 1) bytes
  let cell := max form.width (perByte * form.size - 1)
  let body := String.join (words.map fun w => " " ++ toRight cell (form.text w))
  if form.shown then
    let full := (cell + 1) * (width / form.size)
    body ++ String.ofList (List.replicate (full - body.length) ' ') ++ "  >" ++
      String.ofList (bytes.map fun b =>
        if Names.isShown (Char.ofNat b.toNat) then Char.ofNat b.toNat else '.') ++ "<"
  else body

/-- The place of a row. -/
def placeText (radix : String) (n : Nat) : String :=
  match radix with
  | "n" => ""
  | "d" => digitsOf 10 7 n
  | "x" => digitsOf 16 6 n
  | _ => digitsOf 8 7 n

/-- How bytes are shown. -/
structure Dump where
  forms : List Form
  radix : String
  width : Nat
  /-- Rows that repeat the one before are shown. -/
  full : Bool

/-- The widest column for one byte. -/
def Dump.perByte (d : Dump) : Nat :=
  (d.forms.map fun f => (f.width + f.size) / f.size).foldl max 0

/-- Rows of bytes with the place of each; of rows that are the same only the first is shown. -/
def dumpRows (d : Dump) : Nat → Option (List UInt8) → Bool → List (List UInt8) → List String
  | _, _, _, [] => []
  | place, before, marked, row :: rest =>
    let next := place + row.length
    if !d.full && before = some row && row.length = d.width then
      (if marked then [] else ["*\n"]) ++ dumpRows d next (some row) true rest
    else
      let front := placeText d.radix place
      let blank := String.ofList (List.replicate front.length ' ')
      (d.forms.zipIdx.map fun f =>
        (if f.2 = 0 then front else blank) ++ dumpRow (if 1 < d.forms.length then d.perByte else 0)
          d.width f.1 row ++ "\n") ++ dumpRows d next (some row) false rest

/-- The options of `od`. -/
def odUsage : Usage where
  program := "od"
  code := 1
  letters := "A:abcdj:N:ost:vw::x"
  names := [("address-radix=", 'A'), ("skip-bytes=", 'j'), ("read-bytes=", 'N'), ("format=", 't'),
    ("output-duplicates", 'v'), ("width=?", 'w')]

/-- The forms of the short options. -/
def shortForms : List (Char × String) :=
  [('a', "a"), ('b', "o1"), ('c', "c"), ('d', "u2"), ('o', "o2"), ('s', "d2"), ('x', "x2")]

/-- Shows bytes. -/
def od : Program := odUsage.checked fun a => do
  let given := (a.letters.filterMap fun c => shortForms.lookup c) ++ a.allOf 't'
  match (if given.isEmpty then ["o2"] else given).mapM fun t =>
    formsOf t (t.length + 1) t.toList with
  | .error text => fail 1 ("od: " ++ text)
  | .ok forms => do
    let lost ← (a.words.filter (· != "-")).filterM fun name => do
      match ← Sh.readFile name with
      | .ok _ => return false
      | .error e => return e != .isFolder
    let bytes ← inputOf "od" 1 a.words
    let start := ((a.value? 'j').bind count?).getD 0
    let bytes := bytes.drop start
    let bytes := match (a.value? 'N').bind count? with
      | some n => bytes.take n
      | none => bytes
    let d : Dump :=
      { forms := forms.flatten, radix := (a.value? 'A').getD "o"
        width := ((a.value? 'w').bind count?).getD (if a.has 'w' then 32 else 16)
        full := a.has 'v' }
    let rows := dumpRows d start none false (chunks d.width (bytes.length + 1) bytes)
    let last := if d.radix = "n" then [] else [placeText d.radix (start + bytes.length) ++ "\n"]
    if lost.length < (sources a.words).length then Sh.say (String.join (rows ++ last))

/-! ### Bytes as text -/

/-- The characters that stand for six bits. -/
def sixBits : List Char := "ABCDEFGHIJKLMNOPQRSTUVWXYZabcdefghijklmnopqrstuvwxyz0123456789+/".toList

/-- The characters that stand for five bits. -/
def fiveBits : List Char := "ABCDEFGHIJKLMNOPQRSTUVWXYZ234567".toList

/-- The digits of a number in a base, the given number of them. -/
def baseDigits (base : Nat) : Nat → Nat → List Nat
  | 0, _ => []
  | count + 1, n => baseDigits base count (n / base) ++ [n % base]

/-- Bytes as characters, a group at a time; `bits` of them stand in a character, and a group has
`size` bytes. -/
def encodeGroups (alphabet : List Char) (bits size : Nat) (bytes : List UInt8) : List Char :=
  (chunks size (bytes.length + 1) bytes).flatMap fun group =>
    let full := group ++ List.replicate (size - group.length) 0
    let n := full.foldl (fun n b => n * 256 + b.toNat) 0
    let count := 8 * size / bits
    let kept := (8 * group.length + bits - 1) / bits
    ((baseDigits (Nat.pow 2 bits) count n).take kept).map (fun i => (alphabet[i]?).getD '=') ++
      List.replicate (count - kept) '='

/-- The bytes of characters, and whether they are groups as they should be. -/
def decodeGroups (alphabet : List Char) (bits size : Nat) : Nat → List Char → List UInt8 × Bool
  | 0, _ => ([], true)
  | _, [] => ([], true)
  | fuel + 1, cs =>
    let count := 8 * size / bits
    let group := cs.take count
    let values := (group.takeWhile fun c => alphabet.contains c).filterMap alphabet.idxOf?
    let known := values.length * bits / 8
    let n := values.foldl (fun n v => n * Nat.pow 2 bits + v) 0
    let spare := values.length * bits - 8 * known
    let bytes := (baseDigits 256 known (n / Nat.pow 2 spare)).map UInt8.ofNat
    let padded := group.drop values.length
    if values.length = count then
      let (more, good) := decodeGroups alphabet bits size fuel (cs.drop count)
      (bytes ++ more, good)
    else
      (bytes, group.length = count && padded.all (· == '=') && known ≠ 0 && cs.length = count)

/-- Characters in lines of a width. -/
def inRows (width : Nat) (cs : List Char) : String :=
  String.join ((chunks width (cs.length + 1) cs).map fun row => String.ofList row ++ "\n")

/-- Writes bytes as text, or text as bytes. -/
def baseCode (program : String) (alphabet : List Char) (bits size : Nat) : Program :=
  let usage : Usage :=
    { program := program, code := 1, letters := "dw:i"
      names := [("decode", 'd'), ("wrap=", 'w'), ("ignore-garbage", 'i')] }
  usage.checked fun a => do
    let width := (a.value? 'w').getD "76"
    match a.words[1]?, count? width with
    | some extra, _ => usage.refuse ("extra operand " ++ Names.argument extra)
    | none, none => fail 1 (program ++ ": invalid wrap size: " ++ Names.argument width)
    | none, some width => do
      let bytes ← inputOf program 1 a.words
      if a.has 'd' then
        let cs := (octets bytes).filter fun c =>
          c != '\n' && (!a.has 'i' || alphabet.contains c || c == '=')
        let (out, good) := decodeGroups alphabet bits size (cs.length + 1) cs
        Sh.emit 1 (.ofBytes out)
        if !good then fail 1 (program ++ ": invalid input")
      else
        let cs := encodeGroups alphabet bits size bytes
        Sh.say (if width = 0 then String.ofList cs else inRows width cs)

/-- Bytes as characters that stand for six bits each. -/
def base64 : Program := baseCode "base64" sixBits 6 3

/-- Bytes as characters that stand for five bits each. -/
def base32 : Program := baseCode "base32" fiveBits 5 5

/-! ### Comparing -/

/-- The number of bytes that two lists have in common at their starts. -/
def common : List UInt8 → List UInt8 → Nat
  | a :: as, b :: bs => if a = b then common as bs + 1 else 0
  | _, _ => 0

/-- The options of `cmp`. -/
def cmpUsage : Usage where
  program := "cmp"
  code := 2
  letters := "bci:ln:s"
  names := [("print-bytes", 'b'), ("ignore-initial=", 'i'), ("verbose", 'l'), ("bytes=", 'n'),
    ("quiet", 's'), ("silent", 's')]
  advice := "cmp: Try 'cmp --help' for more information."

/-- Where the shorter of two files ends. -/
def endText (name : String) (bytes : List UInt8) : String :=
  let ends := bytes.count Stream.newline
  let ended := bytes.getLast? = some Stream.newline
  if bytes.isEmpty then "cmp: EOF on " ++ name ++ " which is empty"
  else "cmp: EOF on " ++ name ++ " after byte " ++ Nat.repr bytes.length ++
    (if ended then ", line " ++ Nat.repr ends else ", in line " ++ Nat.repr (ends + 1))

/-- All places at which two files differ. -/
def differences (s t : List UInt8) : String :=
  let width := (Nat.repr (max s.length t.length)).length
  String.join ((s.zip t).zipIdx.map fun p =>
    if p.1.1 = p.1.2 then ""
    else toRight width (Nat.repr (p.2 + 1)) ++ " " ++
      toRight 3 (String.ofList (Nat.toDigits 8 p.1.1.toNat)) ++ " " ++
      toRight 3 (String.ofList (Nat.toDigits 8 p.1.2.toNat)) ++ "\n")

/-- Compares two files. -/
def cmp : Program := cmpUsage.checked fun a => do
  match a.words with
  | [] => cmpUsage.refuse "missing operand after 'cmp'"
  | x :: more => do
    let y := more.headD "-"
    match ← source x, ← source y with
    | .ok s, .ok t => do
      let cut := fun (bytes : List UInt8) => match (a.value? 'n').bind count? with
        | some n => bytes.take n
        | none => bytes
      let s := cut (← whole s)
      let t := cut (← whole t)
      let n := common s t
      Sh.finish (if s = t then 0 else 1)
      if s != t && !a.has 's' then
        let shorter := if s.length ≤ t.length then (x, s) else (y, t)
        if a.has 'l' then do
          Sh.say (differences s t)
          if s.length ≠ t.length then
            Sh.complain ("cmp: EOF on " ++ shorter.1 ++
              if shorter.2.isEmpty then " which is empty"
                else " after byte " ++ Nat.repr shorter.2.length)
        else if n < s.length && n < t.length then
          Sh.say (x ++ " " ++ y ++ " differ: char " ++ Nat.repr (n + 1) ++ ", line " ++
            Nat.repr ((s.take n).count Stream.newline + 1) ++ "\n")
        else Sh.complain (endText shorter.1 shorter.2)
    | .error e, _ => fail 2 ("cmp: " ++ x ++ ": " ++ e.reason)
    | _, .error e => fail 2 ("cmp: " ++ y ++ ": " ++ e.reason)

end Arbor.Shell.Program
