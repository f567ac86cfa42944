import Arbor.Shell.Program.Edit.Bench
import Arbor.Text.Utf8

/-! # A program that edits line by line

`sed` reads a script and edits its inputs by it: as one, each for itself, or in their places. -/

namespace Arbor.Shell.Program

namespace Edit

/-- The options of `sed`. -/
def usage : Usage where
  program := "sed"
  code := 1
  letters := "bsnrzuEe:f:l:i::"
  names := [("binary", 'b'), ("regexp-extended", 'E'), ("debug", 'd'), ("in-place=?", 'i'),
    ("expression=", 'e'), ("file=", 'f'), ("line-length=", 'l'), ("null-data", 'z'),
    ("zero-terminated", 'z'), ("quiet", 'n'), ("silent", 'n'), ("posix", 'p'), ("separate", 's'),
    ("sandbox", 'S'), ("unbuffered", 'u'), ("follow-symlinks", 'F')]
  advice := "Usage: sed [OPTION]... \x7bscript-only-if-no-other-script\x7d [input-file]..."

/-- The parts of the script that arguments give, and the files behind them. -/
def scriptOf (a : Arguments) : Sh (Except String (List Part × List String)) := do
  let given := a.values.filter fun v => v.1 == 'e' || v.1 == 'f'
  if given.isEmpty then return .ok (a.words.take 1 |>.map (Part.mk none), a.words.drop 1)
  let mut parts : List Part := []
  for (kind, text) in given do
    if kind == 'e' then parts := parts ++ [⟨none, text⟩]
    else
      match ← source text with
      | .ok s =>
        let cs := Text.decode (← whole s)
        let cs := if cs.getLast? = some '\n' then cs.dropLast else cs
        parts := parts ++ [⟨some text, String.ofList cs⟩]
      | .error e => return .error ("couldn't open file " ++ text ++ ": " ++ e.reason)
  return .ok (parts, a.words)

/-- Edits the bytes of one input and writes what goes to other files. -/
def edit (a : Arguments) (edits : List Edit) (title : String) (bytes : List UInt8) :
    Sh (Nat × List UInt8) := do
  let s ← get
  let lookup := fun (name : String) =>
    ((s.files.read (s.cwd.join ⟨name⟩)).toOption).map ByteArray.toList
  let w : Setting := {
    quiet := a.has 'n'
    ending := if a.has 'z' then Char.ofNat 0 else '\n'
    width := ((a.value? 'l').bind count?).getD 70
    title := title
    lookup := lookup }
  let out := apply w edits bytes
  for (name, content) in out.files do
    let p ← Sh.locate name
    modify fun s => { s with files := ((s.files.write p ⟨content.toArray⟩).toOption).getD s.files }
  return (out.code, out.bytes)

/-- Edits files in their places. -/
def inPlace (a : Arguments) (edits : List Edit) (names : List String) : Sh Unit := do
  for name in names do
    match ← Sh.readFile name with
    | .error e =>
      fail (if e = .isFolder then 4 else 2) (if e = .isFolder
        then "sed: couldn't edit " ++ name ++ ": not a regular file"
        else "sed: can't read " ++ name ++ ": " ++ e.reason)
    | .ok s => do
      let p ← Sh.locate name
      let old ← whole s
      let (_, bytes) ← edit a edits name old
      let save := fun (p : Path) (content : List UInt8) =>
        (modify fun s => { s with
          files := ((s.files.write p ⟨content.toArray⟩).toOption).getD s.files } : Sh Unit)
      match a.value? 'i' with
      | some ending => do save (← Sh.locate (name ++ ending)) old
      | none => pure ()
      save p bytes

/-- Writes what inputs are after editing: as one, or each for itself. -/
def toOutput (a : Arguments) (edits : List Edit) (names : List String) : Sh Unit := do
  let mut inputs : List (String × List UInt8) := []
  for name in sources names do
    match ← source name with
    | .ok s => inputs := inputs ++ [(name, ← whole s)]
    | .error e =>
      if e = .isFolder then do
        fail 4 ("sed: read error on " ++ name ++ ": " ++ e.reason)
        return ()
      else fail 2 ("sed: can't read " ++ name ++ ": " ++ e.reason)
  let title := (inputs.head?.map Prod.fst).getD "-"
  let parts := if a.has 's' then inputs else [(title, (inputs.map Prod.snd).flatten)]
  for (title, bytes) in parts do
    let (code, out) ← edit a edits title bytes
    Sh.emit 1 (.ofBytes out)
    if code ≠ 0 then Sh.finish code

end Edit

/-- Edits files in their places, or writes what they are after editing. -/
def sed : Program := Edit.usage.checked fun a => do
  match ← Edit.scriptOf a with
  | .error text => fail 4 ("sed: " ++ text)
  | .ok ([], _) => fail 1 Edit.usage.advice
  | .ok (parts, names) =>
    match Edit.read (if a.has 'E' || a.has 'r' then .strict else .basic) parts with
    | .error text => fail 1 ("sed: " ++ text)
    | .ok edits =>
      let a := if Edit.startsQuiet parts then { a with letters := 'n' :: a.letters } else a
      match Edit.strayJump? edits with
      | some name => fail 4 ("sed: can't find label for jump to \x60" ++ name ++ "'")
      | none =>
        if a.has 'i' || (a.value? 'i').isSome then Edit.inPlace a edits names
        else Edit.toOutput a edits names

end Arbor.Shell.Program
