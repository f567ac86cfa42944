import Arbor.Command.Output
import Arbor.Command.Screen
import Arbor.Shell.Run

/-! # Running a command in a folder

A command is screened, handed to a shell in the folder with nothing to read, and given a time in
which it has to end together with everything that it started. -/

namespace Arbor.Command

open Arbor.Shell

/-- Why there is no output. -/
inductive ExecuteError where
  | blocked (hazard : Hazard)
  /-- The command or its folder holds the character NUL. -/
  | nulCharacter
  /-- The folder cannot be entered. -/
  | folder (error : OsError)
  | timedOut (limit : Nat)
  deriving DecidableEq, Repr

/-- The wording of an error. -/
def ExecuteError.message : ExecuteError → String
  | .blocked h => h.message
  | .nulCharacter => "Failed to execute command: nul byte found in provided data"
  | .folder e => "Failed to execute command: " ++ e.message
  | .timedOut limit => "Command timed out after " ++ Nat.repr (limit / 1000) ++ " seconds"

/-- A text with the character NUL. -/
def holdsNul (s : String) : Bool := s.toList.contains (Char.ofNat 0)

/-- Enters a folder. -/
def enterFolder (files : FileSystem) (cwd : Path) : Except ExecuteError Unit :=
  match files.status true cwd with
  | .error e => .error (.folder e)
  | .ok (_, .folder) => .ok ()
  | .ok _ => .error (.folder .notFolder)

/-- The exit code of a shell that stopped; a signal leaves none and counts as -1. -/
def codeOf (status : Nat) : Except Stop Unit → Int
  | .ok _ => status
  | .error (.exit code) => code
  | .error (.killed _) => -1
  | .error .unread => -1
  | .error _ => status

/-- Milliseconds in microseconds. -/
def microseconds (span : Nat) : Nat := span * 1000

/-- The output of a shell's run that started from a state. -/
def outcome (limit : Nat) : Except Stop Unit × State → Except ExecuteError Output
  | (result, s) =>
    if result matches .error .overrun || microseconds limit ≤ s.lastWrite then
      .error (.timedOut limit)
    else .ok {
      stdout := sanitize (s.buffer 1).start
      stderr := sanitize (s.buffer 2).start
      code := codeOf s.status result }

/-- **Runs a command in a folder,** for less than `limit` milliseconds. -/
def execute (files : FileSystem) (cwd : Path) (limit : Nat) (command : String) :
    Except ExecuteError Output :=
  match screen command with
  | .error hazard => .error (.blocked hazard)
  | .ok _ =>
    if holdsNul command || holdsNul cwd.text then .error .nulCharacter
    else do
      enterFolder files cwd
      outcome limit ((Script.runShell command).run (State.start files cwd (microseconds limit)))

end Arbor.Command
