import Arbor.Directive.Token

/-! # Directives

A directive is the one command of a model turn. There are three dialects: coders own a file,
managers own a folder, and the master stands between the human and the root manager. The type
`Directive d` holds exactly the directives of the dialect `d`, so a coder's directive cannot create
or delete an entry, and only the master's can address the human. -/

namespace Arbor.Directive

/-- The three directive languages. -/
inductive Dialect where
  | coder
  | manager
  | master
  deriving DecidableEq, Repr

/-- The verbs of all dialects. -/
inductive Verb where
  | read
  | run
  | change
  | spawn
  | wait
  | finish
  | create
  | delete
  | delegate
  | updateReadme
  | updateDocumentation
  | message
  deriving DecidableEq, Repr

/-- The word of a verb. -/
def Verb.text : Verb → String
  | .read => "READ"
  | .run => "RUN"
  | .change => "CHANGE"
  | .spawn => "SPAWN"
  | .wait => "WAIT"
  | .finish => "FINISH"
  | .create => "CREATE"
  | .delete => "DELETE"
  | .delegate => "DELEGATE"
  | .updateReadme => "UPDATE_README"
  | .updateDocumentation => "UPDATE_DOCUMENTATION"
  | .message => "MESSAGE"

/-- The verbs of a dialect, in the order in which messages list them. -/
def Dialect.verbs : Dialect → List Verb
  | .coder => [.read, .run, .change, .spawn, .wait, .finish]
  | .manager =>
    [.create, .delete, .read, .delegate, .run, .updateReadme, .spawn, .wait, .finish]
  | .master =>
    [.read, .delegate, .spawn, .run, .wait, .updateDocumentation, .finish, .message]

/-- The verb of a dialect that a word names. -/
def Dialect.verb? (d : Dialect) (word : String) : Option Verb :=
  d.verbs.find? fun v => v.text == word

/-- The verbs of a dialect as messages list them. -/
def Dialect.verbList (d : Dialect) : String := String.intercalate ", " (d.verbs.map Verb.text)

/-- A file or a folder named by a directive. -/
structure Target where
  name : String
  isFolder : Bool
  deriving DecidableEq, Repr

/-- The word before the name of a target. -/
def Target.noun (t : Target) : String := if t.isFolder then "FOLDER" else "FILE"

/-- The kinds of short-lived helper agents. -/
inductive HelperKind where
  /-- Writes and runs tests in a scratch file. -/
  | tester
  deriving DecidableEq, Repr

/-- The word of a helper kind. -/
def HelperKind.text : HelperKind → String
  | .tester => "TESTER"

/-- The helper kind that a word names, in any case. -/
def HelperKind.ofText? (word : String) : Option HelperKind :=
  if Text.upper word = "TESTER" then some .tester else none

/-- One helper that is asked for. -/
structure HelperOrder where
  kind : HelperKind
  prompt : String
  deriving DecidableEq, Repr

end Arbor.Directive

namespace Arbor

open Directive

/-- **The directives of a dialect.** -/
inductive Directive : Dialect → Type where
  /-- Take files, or the notes of folders, into memory. -/
  | read {d : Dialect} (targets : List Target) : Directive d
  /-- Run a shell command. -/
  | run {d : Dialect} (command : String) : Directive d
  /-- Start helpers. -/
  | spawn {d : Dialect} (orders : List HelperOrder) : Directive d
  /-- Idle until a child or a helper reports. -/
  | wait {d : Dialect} : Directive d
  /-- Report the work and end the task; the report may be empty. -/
  | finish {d : Dialect} (report : String) : Directive d
  /-- Overwrite the agent's own file. -/
  | change (content : String) : Directive .coder
  /-- Make an entry of the agent's folder. -/
  | create (target : Target) (content : Option String) : Directive .manager
  /-- Remove an entry of the agent's folder. -/
  | delete (target : Target) : Directive .manager
  /-- Give each named child its prompt. -/
  | assign (assignments : List (Target × String)) : Directive .manager
  /-- Overwrite the notes of the agent's folder. -/
  | updateReadme (content : String) : Directive .manager
  /-- Hand a task to the root manager. -/
  | delegate (prompt : String) : Directive .master
  /-- Overwrite the documentation of the project. -/
  | updateDocumentation (content : String) : Directive .master
  /-- Ask the human something and keep working. -/
  | message (prompt : String) : Directive .master
  deriving DecidableEq, Repr

namespace Directive

/-- The verb of a directive. -/
def verb {d : Dialect} : Directive d → Verb
  | .read _ => .read
  | .run _ => .run
  | .spawn _ => .spawn
  | .wait => .wait
  | .finish _ => .finish
  | .change _ => .change
  | .create _ _ => .create
  | .delete _ => .delete
  | .assign _ => .delegate
  | .updateReadme _ => .updateReadme
  | .delegate _ => .delegate
  | .updateDocumentation _ => .updateDocumentation
  | .message _ => .message

end Directive

end Arbor
