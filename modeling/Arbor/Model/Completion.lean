import Arbor.Model.Error
import Arbor.Model.Json
import Arbor.Model.Request
import Arbor.Text.Decimal

/-! # What is said to a provider and what it answers

A request becomes an object with the model, the messages, the system text in front of them, and a
temperature of zero. An answer is an object with choices, of which the first counts, or with an
error, which counts like a response without success. Unknown fields are passed over, a known field
may be given once, and a record may also be written as the array of its fields in order. -/

namespace Arbor.Model

/-- The body of a request. -/
def Request.body (model : String) (r : Request) : Json :=
  let system := r.system.map fun text => Message.mk .system text
  let messages := (system.toList ++ r.messages).map fun m =>
    Json.object [("role", .text m.role.text), ("content", .text m.content)]
  .object [("model", .text model), ("messages", .array messages), ("temperature", .number "0.0")]

/-- The value of a known field, if it is given; nothing at all if it is given twice. -/
def fieldOf? (fields : List (String × Json)) (name : String) : Option (Option Json) :=
  match fields.filter fun f => f.1 = name with
  | [] => some none
  | [f] => some (some f.2)
  | _ => none

/-- The known fields of a record, as far as they are given. -/
def record? (names : List String) : Json → Option (List (Option Json))
  | .object fields => names.mapM (fieldOf? fields)
  | .array items => if items.length = names.length then some (items.map some) else none
  | _ => none

/-- A text that may be absent. -/
def optionalText? : Option Json → Option (Option String)
  | none => some none
  | some .null => some none
  | some (.text s) => some (some s)
  | some _ => none

/-- The reply of a choice. -/
def message? (j : Json) : Option String := do
  let [content] ← record? ["content"] j | none
  return (← optionalText? content).getD ""

/-- The reply of a choice, after the reason why it ended is found in order. -/
def choice? (j : Json) : Option String := do
  let [some message, reason] ← record? ["message", "finish_reason"] j | none
  let reply ← message? message
  let _ ← optionalText? reason
  return reply

/-- The status that an error inside a successful response stands for when it names none. -/
def innerStatus : Nat := 502

/-- The status that a code names: a whole number of at most 16 bits. -/
def statusOf : Option Json → Nat
  | some (.number literal) =>
    if literal.toList.all Char.isDigit then (Text.decimal? UInt16.size literal).getD innerStatus
    else innerStatus
  | _ => innerStatus

/-- The failure inside a successful response. -/
def failure? (j : Json) : Option Error := do
  let [some (.text message), code] ← record? ["message", "code"] j | none
  return .ofResponse (statusOf code) message none

/-- The failure inside a successful response, if it holds one. -/
def optionalFailure? : Option Json → Option (Option Error)
  | none => some none
  | some .null => some none
  | some j => (failure? j).map some

/-- The replies of the choices. -/
def choices? : Option Json → Option (List String)
  | none => some []
  | some (.array items) => items.mapM choice?
  | some _ => none

/-- The replies and the failure of a response. -/
def completion? (j : Json) : Option (List String × Option Error) := do
  let [choices, error] ← record? ["choices", "error"] j | none
  return (← choices? choices, ← optionalFailure? error)

/-- **The reply in the body of a successful response.** -/
def replyOf (body : String) : Except Error String :=
  match Json.parse? body >>= completion? with
  | none => .error (.ofKind .unreadable ("not a completion: " ++ body))
  | some (_, some error) => .error error
  | some ([], none) => .error (.ofKind .unreadable "response has no choices")
  | some (first :: _, none) => .ok first

end Arbor.Model
