/-! # Earlier turns in a prompt

The prompt of a turn shows the earlier turns of the task, the oldest first, within a budget of
bytes. The newest is always shown; of the others as many as fit without a gap. -/

namespace Arbor

/-- A finished turn: what the agent was asked and what it replied. -/
structure Exchange where
  prompt : String
  response : String
  deriving DecidableEq, Repr

namespace Exchange

/-- The text of a turn. -/
def text (e : Exchange) : String :=
  "PROMPT: " ++ e.prompt ++ "\nRESPONSE: " ++ e.response ++ "\n\n"

/-- The start of a list of texts that fits into `budget` bytes, `used` of them spent. -/
def within (budget : Nat) : Nat → List String → List String
  | _, [] => []
  | used, s :: rest =>
    if budget < used + s.utf8ByteSize then [] else s :: within budget (used + s.utf8ByteSize) rest

/-- The texts that are shown, the newest first, of texts in that order. -/
def newest (budget : Nat) : List String → List String
  | [] => []
  | s :: rest => s :: within budget s.utf8ByteSize rest

/-- **The earlier turns as one text.** -/
def history (budget : Nat) (turns : List Exchange) : String :=
  String.join (newest budget (turns.map text).reverse).reverse

end Exchange

end Arbor
