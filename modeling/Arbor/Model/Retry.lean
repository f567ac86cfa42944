import Arbor.Model.Error

/-! # When a request is sent again

The delay doubles with each attempt from a base; the wait that a provider asks for replaces it; both
are capped. Durations and the factor saturate at the greatest value of their width. -/

namespace Arbor.Model

/-- The greatest duration: 2^64 - 1 seconds and 999999999 nanoseconds. -/
def maxDuration : Nanos := (UInt64.size - 1) * 1000000000 + 999999999

/-- The greatest factor of a delay. -/
def maxFactor : Nat := UInt32.size - 1

/-- The factor of the delay after `attempt` attempts: two to that power. -/
def backoffFactor (attempt : Nat) : Nat := if attempt < 32 then 1 <<< attempt else maxFactor

/-- The schedule of further attempts. -/
structure RetryPolicy where
  maxAttempts : Nat
  baseDelay : Nanos
  maxDelay : Nanos
  deriving DecidableEq, Repr

namespace RetryPolicy

/-- Three further attempts, from one second up to twenty. -/
def standard : RetryPolicy :=
  { maxAttempts := 3, baseDelay := 1000000000, maxDelay := 20000000000 }

/-- No further attempt. -/
def none : RetryPolicy := { standard with maxAttempts := 0 }

/-- **The delay before attempt number `attempt + 1`,** or nothing to give up. -/
def delay (policy : RetryPolicy) (error : Error) (attempt : Nat) : Option Nanos :=
  if !error.kind.isRetryable || policy.maxAttempts ≤ attempt then Option.none
  else
    let wait := error.retryAfter.getD (min (policy.baseDelay * backoffFactor attempt) maxDuration)
    some (min wait policy.maxDelay)

end RetryPolicy

end Arbor.Model
