import Arbor.Shell.Stream

/-! # Names in messages

A message shows a name so that a shell can read it back. A name of plain characters may stand as it
is; others stand between quotes, with bytes that cannot be shown as numbers. Each character stands
for a byte. -/

namespace Arbor.Shell.Program.Names

/-- The byte can be shown. -/
def isShown (c : Char) : Bool := 32 ≤ c.toNat && c.toNat < 127

/-- The letter for a byte that cannot be shown. -/
def letter? (c : Char) : Option Char :=
  match c.toNat with
  | 7 => some 'a'
  | 8 => some 'b'
  | 9 => some 't'
  | 10 => some 'n'
  | 11 => some 'v'
  | 12 => some 'f'
  | 13 => some 'r'
  | _ => none

/-- A byte that cannot be shown, behind a backslash. -/
def escaped (c : Char) : List Char :=
  match letter? c with
  | some l => ['\\', l]
  | none =>
    let digits := Nat.toDigits 8 c.toNat
    '\\' :: (List.replicate (3 - digits.length) '0' ++ digits)

/-- The character means something to a shell, wherever it stands. -/
def isSpecial (c : Char) : Bool := " !\"$&()*;<=>[^\x60|'\\?".toList.contains c || !isShown c

/-- The name cannot stand without quotes. A colon would seem to end it where `colon` says so. -/
def needsQuotes (colon : Bool) (cs : List Char) : Bool :=
  match cs with
  | [] => true
  | c :: rest => c == '#' || c == '~' || (rest.isEmpty && (c == '\x7b' || c == '\x7d')) ||
      cs.any fun c => isSpecial c || (colon && c == ':')

/-- The characters of a name inside single quotes; `numbers` tells that the last one was written
as a number. -/
def insideQuotes : Bool → List Char → List Char
  | _, [] => []
  | numbers, c :: rest =>
    if !isShown c then
      (if numbers then [] else ['\'', '$', '\'']) ++ escaped c ++ insideQuotes true rest
    else
      (if numbers then ['\'', '\''] else []) ++
        (if c == '\'' then ['\'', '\\', '\'', '\''] else [c]) ++ insideQuotes false rest

/-- The name holds a single quote, and nothing that double quotes would not keep. -/
def fitsDouble (cs : List Char) : Bool :=
  let body := if cs.head?.any fun c => c == '#' || c == '~' then cs.drop 1 else cs
  cs.contains '\'' && body.all fun c => c.isAlphanum || " '%+,-./:]_@".toList.contains c

/-- A name between quotes. -/
def quoted (name : String) : String :=
  let cs := octetsOf name
  String.ofList (if fitsDouble cs then '"' :: cs ++ ['"']
    else '\'' :: insideQuotes false cs ++ ['\''])

/-- A name in front of a colon: with quotes only if it needs them. -/
def shown (name : String) : String := if needsQuotes true (octetsOf name) then quoted name else name

/-- A name at the end of a message: with quotes only if it needs them. -/
def last (name : String) : String := if needsQuotes false (octetsOf name) then quoted name else name

/-- An argument between quotes, with escapes for what cannot stand there. -/
def argument (text : String) : String :=
  let inside := (octetsOf text).flatMap fun c =>
    if c == '\'' || c == '\\' then ['\\', c] else if isShown c then [c] else escaped c
  String.ofList ('\'' :: inside ++ ['\''])

end Arbor.Shell.Program.Names
