/-! # The command line

A project and a prompt, and switches that may stand anywhere. -/

namespace Arbor

/-- What the command line asks for. -/
structure CommandLine where
  /-- The folder of the project. -/
  root : String
  /-- The task for the root's manager, or the first prompt of the master. -/
  prompt : String
  /-- A master stands between the human and the root's manager. -/
  master : Bool
  /-- The model, in place of the configured one. -/
  model : Option String
  /-- The agents are shown at the end. -/
  dumpState : Bool
  deriving DecidableEq, Repr

namespace CommandLine

/-- Why a command line is refused. -/
inductive UsageError where
  | missing (argument : String)
  | unknown (argument : String)
  | needsValue (option : String)
  deriving DecidableEq, Repr

/-- The wording of a refusal. -/
def UsageError.message : UsageError → String
  | .missing argument => "the argument <" ++ argument ++ "> is missing"
  | .unknown argument => "unexpected argument '" ++ argument ++ "' found"
  | .needsValue option => "a value is required for '" ++ option ++ "'"

/-- How the program is called. -/
def usage : String :=
  "Usage: arbor [--master] [--model <MODEL>] [--dump-state] <ROOT> <PROMPT>"

/-- The switches so far, and the arguments that are no switches. -/
structure Read where
  arguments : List String
  master : Bool
  model : Option String
  dumpState : Bool

/-- Reads arguments one after the other. -/
def readArguments (r : Read) : List String → Except UsageError Read
  | [] => .ok r
  | "--" :: rest => .ok { r with arguments := r.arguments ++ rest }
  | "--master" :: rest => readArguments { r with master := true } rest
  | "--dump-state" :: rest => readArguments { r with dumpState := true } rest
  | ["--model"] => .error (.needsValue "--model <MODEL>")
  | "--model" :: model :: rest => readArguments { r with model := some model } rest
  | arg :: rest =>
    if arg.startsWith "-" && arg != "-" then .error (.unknown arg)
    else readArguments { r with arguments := r.arguments ++ [arg] } rest

/-- **Reads a command line.** -/
def parse (args : List String) : Except UsageError CommandLine := do
  let r ← readArguments { arguments := [], master := false, model := none, dumpState := false } args
  match r.arguments with
  | [root, prompt] =>
    return { root := root, prompt := prompt, master := r.master, model := r.model,
             dumpState := r.dumpState }
  | [] => throw (.missing "ROOT")
  | [_] => throw (.missing "PROMPT")
  | _ :: _ :: extra :: _ => throw (.unknown extra)

end CommandLine

end Arbor
