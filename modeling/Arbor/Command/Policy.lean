import Arbor.Text.Blank
import Arbor.Text.Quoted

/-! # The allow-list of commands

A command is allowed if it starts with one of the listed programs, as whole words, and holds no
syntax that chains, substitutes or redirects: the list vouches for the first program only. -/

namespace Arbor.Command

open Arbor.Text

/-- The allow-list. Each entry is a program, possibly with its first arguments. -/
structure Policy where
  programs : List String
  deriving DecidableEq, Repr

/-- The list that is used when none is configured. -/
def Policy.standard : Policy :=
  { programs := ["python", "python3", "pytest", "ls", "cat", "echo"] }

/-- The shell syntax that runs a second command or writes through a redirect, in the order in which
it is looked for. -/
def forbiddenSyntax : List String :=
  [";", "&", "|", "<", ">", "`", "$(", "$\x7b", "\n", "\r"]

/-- Why a command is refused. -/
inductive Refusal where
  | empty
  | shellSyntax (text : String)
  | notListed
  deriving DecidableEq, Repr

/-- The wording of a refusal. -/
def Refusal.message : Refusal → String
  | .empty => "empty command"
  | .shellSyntax text => "shell syntax " ++ showText text ++ " is not allowed"
  | .notListed => "no allowed prefix matches"

/-- A command starts with the words of `program`. -/
def startsWithProgram (program command : List Char) : Bool :=
  !program.isEmpty && program.isPrefixOf command && endsWord (command.drop program.length)

/-- **Checks a command against the list.** -/
def Policy.check (policy : Policy) (command : String) : Except Refusal Unit :=
  let cs := trimChars command.toList
  if cs.isEmpty then .error .empty
  else
    match forbiddenSyntax.find? fun text => occursIn text.toList cs with
    | some text => .error (.shellSyntax text)
    | none =>
      if policy.programs.any fun p => startsWithProgram (trimChars p.toList) cs then .ok ()
      else .error .notListed

end Arbor.Command
