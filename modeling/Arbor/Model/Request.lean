/-! # Requests to a model

A request is a list of messages and, for providers that take one, a system text. For the others the
system text goes in front of the user's. -/

namespace Arbor.Model

/-- Who speaks a message. -/
inductive Role where
  | system
  | user
  | assistant
  deriving DecidableEq, Repr

/-- The word for a role. -/
def Role.text : Role → String
  | .system => "system"
  | .user => "user"
  | .assistant => "assistant"

/-- One message of a conversation. -/
structure Message where
  role : Role
  content : String
  deriving DecidableEq, Repr

/-- What is sent to a model. -/
structure Request where
  messages : List Message
  system : Option String
  deriving DecidableEq, Repr

/-- **The request of a turn,** for a provider with a system role or without. -/
def Request.compose (systemRole : Bool) (system user : String) : Request :=
  if systemRole then { messages := [⟨.user, user⟩], system := some system }
  else { messages := [⟨.user, system ++ "\n\n" ++ user⟩], system := none }

end Arbor.Model
