import Arbor.Text.Blank
import Arbor.Text.Lower

/-! # The end of a session

The human ends the session of the master by an empty reply, `exit` or `quit`, in any case and with
blanks around it. -/

namespace Arbor

/-- **The reply ends the session.** -/
def isSessionEnd (reply : String) : Bool :=
  let word := Text.lowerChars (Text.trimChars reply.toList)
  word.isEmpty || word = "exit".toList || word = "quit".toList

end Arbor
