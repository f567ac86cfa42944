import Arbor.Model.Completion
import Arbor.Model.Retry
import Arbor.Text.Utf8

/-! # The client of a provider

A client posts a request and reads the response. After a failure of the server or of the network it
posts the same request again, as long as the retry policy gives a delay; any other failure, and the
last one, is the result. What the other side does is a function of the number of the request. -/

namespace Arbor.Model

/-- What goes wrong with a request before there is a response. -/
inductive Fault where
  | timedOut
  | unreachable
  /-- The request cannot be written down. -/
  | unsendable
  | broken
  deriving DecidableEq, Repr

/-- The words for a fault. -/
def Fault.text : Fault → String
  | .timedOut => "request timed out"
  | .unreachable => "connection failed"
  | .unsendable => "request failed"
  | .broken => "request failed"

/-- A response as it is received. -/
structure Response where
  status : Nat
  /-- The header by which the provider asks for a wait. -/
  retryAfter : Option String
  body : List UInt8
  deriving DecidableEq, Repr

/-- What comes of posting a request. -/
inductive Exchange where
  | failed (fault : Fault) (detail : String)
  /-- The response broke off inside its body. -/
  | cutOff (detail : String)
  | answered (response : Response)
  deriving DecidableEq, Repr

/-- The request reached the other side. -/
def Exchange.isReceived : Exchange → Bool
  | .failed fault _ => fault = .timedOut || fault = .broken
  | _ => true

/-- The wait that a header asks for: whole seconds. -/
def retryAfter? (header : String) : Option Nanos :=
  (Text.decimal? UInt64.size (Text.trim header)).map (· * 1000000000)

/-- The outcome of a response. -/
def Response.outcome (r : Response) : Except Error String :=
  let body := String.ofList (Text.decode r.body)
  if 200 ≤ r.status && r.status ≤ 299 then replyOf body
  else .error (.ofResponse r.status body (r.retryAfter.bind retryAfter?))

/-- The outcome of an exchange. -/
def Exchange.outcome : Exchange → Except Error String
  | .failed fault detail => .error (.ofKind .networkError (fault.text ++ ": " ++ detail))
  | .cutOff detail => .error (.ofKind .networkError ("failed to read response body: " ++ detail))
  | .answered r => r.outcome

/-- A model at a provider. -/
structure Client where
  apiKey : String
  model : String
  retry : RetryPolicy
  deriving DecidableEq, Repr

/-- A request as it is posted. -/
structure Post where
  authorization : String
  title : String
  body : Json

namespace Client

/-- The post of a request. -/
def post (c : Client) (r : Request) : Post where
  authorization := "Bearer " ++ c.apiKey
  title := "codetree"
  body := r.body c.model

/-- A character that may stand in a header: no control character but the tab. -/
def isHeaderChar (c : Char) : Bool := c == '\t' || (0x20 ≤ c.toNat && c.toNat ≠ 0x7F)

/-- The key can be sent. -/
def isSendable (c : Client) : Bool := c.apiKey.toList.all isHeaderChar

/-- What comes of a post, if the other side would come to `exchange`. -/
def tried (c : Client) (exchange : Exchange) : Exchange :=
  if c.isSendable then exchange else .failed .unsendable "the key holds a control character"

/-- Posts a request up to `left` more times, `done` posts having failed: the result and the number
of all posts. -/
def attempts (policy : RetryPolicy) (outcome : Nat → Except Error String) :
    Nat → Nat → Except Error String × Nat
  | 0, done => (outcome done, done + 1)
  | left + 1, done =>
    match outcome done with
    | .ok reply => (.ok reply, done + 1)
    | .error error =>
      match policy.delay error done with
      | none => (.error error, done + 1)
      | some _ => attempts policy outcome left (done + 1)

/-- **The reply to a request and how often it was posted,** if post number `n` comes to
`exchange n`. -/
def generate (c : Client) (exchange : Nat → Exchange) : Except Error String × Nat :=
  attempts c.retry (fun n => (c.tried (exchange n)).outcome) c.retry.maxAttempts 0

end Client

end Arbor.Model
