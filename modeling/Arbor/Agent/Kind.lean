import Arbor.Directive.Basic

/-! # Kinds of agents

The master talks to the human, a manager owns a folder, a coder owns a file, and a helper works in a
scratch file until it reports. The kind of an agent decides its dialect and its prompt. -/

namespace Arbor

open Directive

/-- The kinds of agents. -/
inductive Kind where
  | master
  | manager
  | coder
  | helper (kind : HelperKind)
  deriving DecidableEq, Repr

namespace Kind

/-- The dialect that a kind speaks. -/
def dialect : Kind → Dialect
  | .master => .master
  | .manager => .manager
  | .coder => .coder
  | .helper _ => .coder

/-- Whether agents of the kind are gone after their report. -/
def isHelper : Kind → Bool
  | .helper _ => true
  | _ => false

/-- The word for a kind in names and messages. -/
def text : Kind → String
  | .master => "master"
  | .manager => "manager"
  | .coder => "coder"
  | .helper .tester => "tester"

end Kind

end Arbor
