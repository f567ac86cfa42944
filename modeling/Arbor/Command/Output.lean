import Arbor.Text.Blank
import Arbor.Text.Utf8

/-! # Output of commands

What a command prints is made safe to show (`sanitize`), folded together with its exit code into one
text (`Output.fold`) and cut to a budget of bytes (`truncate`). -/

namespace Arbor.Command

open Arbor.Text

/-- A control byte that is not part of text layout. -/
def isControlByte (b : UInt8) : Bool := b < 0x20 && b != 0x0A && b != 0x0D && b != 0x09

/-- A character that is kept for display. -/
def isShown (c : Char) : Bool :=
  c == '\n' || c == '\r' || c == '\t' || (' ' ≤ c && c != replacement)

/-- More than a tenth of a long output are control bytes. -/
def looksBinary (bytes : List UInt8) : Bool :=
  100 < bytes.length && bytes.length / 10 < bytes.countP isControlByte

/-- **The text of an output.** A binary one is only described; of any other, control characters and
bytes that are no text are left out. -/
def sanitize (bytes : List UInt8) : String :=
  if looksBinary bytes then
    "[Binary output detected - " ++ Nat.repr bytes.length ++ " bytes, " ++
      Nat.repr (bytes.countP isControlByte * 100 / bytes.length) ++ "% non-printable]"
  else String.ofList ((decode bytes).filter isShown)

/-- What is put behind a text that was cut. -/
def truncationMark : String := "\n... [output truncated]"

/-- The place at an offset of a text, if it lies between two characters or at an end. -/
def placeAt? (text : String) (offset : Nat) : Option text.Pos :=
  if h : (String.Pos.Raw.mk offset).IsValid text then some ⟨⟨offset⟩, h⟩ else none

/-- The last place up to an offset, looked for backwards from there; nothing if the search would go
past the start of the text. -/
def placeBack? (text : String) : Nat → Option text.Pos
  | 0 => placeAt? text 0
  | offset + 1 =>
    match placeAt? text (offset + 1) with
    | some place => some place
    | none => placeBack? text offset

/-- The search ends at the start of the text at the latest. -/
theorem isSome_placeBack? (text : String) (offset : Nat) : (placeBack? text offset).isSome := by
  fun_induction placeBack? text offset with
  | case1 => simp [placeAt?, String.Pos.Raw.isValid_zero]
  | case2 => rfl
  | case3 offset absent ih => exact ih

/-- The last place up to an offset. -/
def placeBack (text : String) (offset : Nat) : text.Pos :=
  (placeBack? text offset).get (isSome_placeBack? text offset)

/-- **Cuts a text to a budget of bytes,** between characters, and says so. -/
def truncate (budget : Nat) (text : String) : String :=
  if text.utf8ByteSize ≤ budget then text
  else (text.sliceTo (placeBack text budget)).copy ++ truncationMark

/-- The captured result of a command. -/
structure Output where
  stdout : String
  stderr : String
  code : Int
  deriving DecidableEq, Repr

/-- The budget of a folded output, in bytes. -/
def outputBudget : Nat := 10000

/-- A stream under its heading, nothing if it is empty. -/
def streamSection (name text : String) : String :=
  if text.isEmpty then "" else "\n--- " ++ name ++ " ---\n" ++ text

/-- The line that says how the command ended. -/
def Output.exitLine (o : Output) : String := "Exit code: " ++ toString o.code ++ "\n"

/-- The exit code and both streams as one text. -/
def Output.whole (o : Output) : String :=
  o.exitLine ++ streamSection "stdout" o.stdout ++ streamSection "stderr" o.stderr

/-- **The exit code and both streams within the budget.** -/
def Output.fold (o : Output) : String := truncate outputBudget o.whole

end Arbor.Command
