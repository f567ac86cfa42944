import Arbor.Command.Policy
import Arbor.Yaml.Node

/-! # The allow-list as a document

The list is the value of the key `allowed_prefixes` of a map. Other keys are passed over, a document
or a list of nothing is an empty list, and a key that is given twice is a mistake. -/

namespace Arbor.Command

open Arbor.Yaml

/-- The text of a scalar. -/
def scalarText? : Node → Option String
  | .scalar text _ => some text
  | _ => none

/-- The allow-list of a node. -/
def Policy.ofList? : Node → Option Policy
  | .list items => (items.mapM scalarText?).map Policy.mk
  | node => if node.isAbsent then some ⟨[]⟩ else none

/-- The allow-list of the pairs of a map, whose keys are scalars. -/
def Policy.ofPairs? (pairs : List (Node × Node)) : Option Policy := do
  let keys ← pairs.mapM fun p => scalarText? p.1
  match (keys.zip pairs).filter fun p => p.1 = "allowed_prefixes" with
  | [] => some ⟨[]⟩
  | [(_, _, value)] => Policy.ofList? value
  | _ => none

/-- The allow-list of a document. -/
def Policy.ofNode? : Node → Option Policy
  | .map pairs => Policy.ofPairs? pairs
  | node => if node.isAbsent then some ⟨[]⟩ else none

/-- **The allow-list of a text.** -/
def Policy.ofDocument? (text : String) : Option Policy :=
  match document? text with
  | none => none
  | some none => some ⟨[]⟩
  | some (some node) => Policy.ofNode? node

end Arbor.Command
