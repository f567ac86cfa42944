import Arbor.Text.Blank
import Arbor.Text.Lower

/-! # Failed model calls

A failed call is of one of six kinds. Server and network trouble is worth a second try of the same
request; a rate limit or a prompt that is too long is the provider's signature of a turn that has to
stop; everything else is reported as it is. -/

namespace Arbor.Model

open Arbor.Text

/-- The kinds of failed calls. -/
inductive ErrorKind where
  | rateLimited
  | contextOverflow
  | serverError
  | clientError
  | networkError
  | unreadable
  deriving DecidableEq, Repr

/-- Phrases by which providers say that a prompt does not fit the model. -/
def overflowPhrases : List String :=
  ["context_length_exceeded", "maximum context length", "context window", "prompt is too long",
    "too many tokens"]

/-- A body holds one of the phrases, in any case. -/
def tellsOverflow (body : String) : Bool :=
  overflowPhrases.any fun phrase => occursIn phrase.toList (lowerChars body.toList)

namespace ErrorKind

/-- **The kind of a failed exchange.** A phrase in the body wins over the status. -/
def classify (status : Nat) (body : String) : ErrorKind :=
  if tellsOverflow body then .contextOverflow
  else if status = 429 then .rateLimited
  else if 400 ≤ status && status ≤ 499 then .clientError
  else .serverError

/-- Whether the same request may be sent again. -/
def isRetryable : ErrorKind → Bool
  | .serverError => true
  | .networkError => true
  | _ => false

/-- The words for a kind. -/
def label : ErrorKind → String
  | .rateLimited => "Rate limited"
  | .contextOverflow => "Context overflow"
  | .serverError => "Server error"
  | .clientError => "Client error"
  | .networkError => "Network error"
  | .unreadable => "Unreadable response"

end ErrorKind

/-- A span of time in nanoseconds. -/
abbrev Nanos := Nat

/-- A failed call. -/
structure Error where
  kind : ErrorKind
  status : Option Nat
  message : String
  /-- How long the provider asks to wait. -/
  retryAfter : Option Nanos
  deriving DecidableEq, Repr

namespace Error

/-- A failure without a status. -/
def ofKind (kind : ErrorKind) (message : String) : Error :=
  { kind := kind, status := none, message := message, retryAfter := none }

/-- The provider refused the call for now. -/
def rateLimited (message : String) (retryAfter : Option Nanos) : Error :=
  { kind := .rateLimited, status := some 429, message := message, retryAfter := retryAfter }

/-- The failure that a response without success stands for. -/
def ofResponse (status : Nat) (body : String) (retryAfter : Option Nanos) : Error :=
  { kind := .classify status body, status := some status, message := trim body,
    retryAfter := retryAfter }

/-- The wording of a failure. -/
def text (e : Error) : String :=
  let http := match e.status with
    | some code => " (HTTP " ++ Nat.repr code ++ ")"
    | none => ""
  e.kind.label ++ http ++ ": " ++ e.message

/-- Rate limits and prompts that are too long. -/
def isProviderSignature (e : Error) : Bool :=
  e.kind = .rateLimited || e.kind = .contextOverflow

end Error

end Arbor.Model
