import Arbor.Directive.Error

/-! # Arguments of a directive

Behind its verb a directive is a flat list of items: targets, keyed values and bare words. `items`
groups tokens into items. The functions of `Shape` check a list of items against what a verb takes;
each reports the first item that does not fit. -/

namespace Arbor.Directive

/-- The keys that carry a value. -/
inductive Key where
  | prompt
  | content
  | command
  deriving DecidableEq, Repr

/-- The word of a key. -/
def Key.text : Key → String
  | .prompt => "PROMPT"
  | .content => "CONTENT"
  | .command => "COMMAND"

/-- The key that a word names. -/
def Key.ofText? (word : String) : Option Key :=
  if word = "PROMPT" then some .prompt
  else if word = "CONTENT" then some .content
  else if word = "COMMAND" then some .command
  else none

/-- One argument. -/
inductive Item where
  /-- `FILE "name"` or `FOLDER "name"`. -/
  | target (target : Target)
  /-- `KEY="value"`. -/
  | keyed (key : Key) (value : String)
  /-- A bare word. -/
  | word (text : String)
  deriving DecidableEq, Repr

/-- How a message names an item. -/
def Item.describe : Item → String
  | .target t => t.noun ++ " \"" ++ t.name ++ "\""
  | .keyed key _ => key.text ++ "="
  | .word text => text

/-- Whether a word introduces a target. -/
def isNoun (word : String) : Bool := word == "FILE" || word == "FOLDER"

/-- **The items of the tokens behind the verb.** -/
def items : List Token → Except ParseError (List Item)
  | [] => .ok []
  | .str value :: _ => .error (.strayString value)
  | .equals :: _ => .error .strayEquals
  | [.word word] =>
    if isNoun word then .error (.expectedName word) else .ok [.word word]
  | .word word :: .str value :: rest =>
    if isNoun word then do
      return .target { name := value, isFolder := word == "FOLDER" } :: (← items rest)
    else .error (.strayString value)
  | .word word :: .equals :: rest =>
    if isNoun word then .error (.expectedName word)
    else
      match Key.ofText? word, rest with
      | none, _ => .error (.unknownKey word)
      | some key, .str value :: rest => do return .keyed key value :: (← items rest)
      | some _, _ => .error (.expectedValue word)
  | .word word :: .word next :: rest =>
    if isNoun word then .error (.expectedName word)
    else do return .word word :: (← items (.word next :: rest))

/-- The verb word of a list of tokens and the items behind it. -/
def split : List Token → Except ParseError (String × List Item)
  | [] => .error .empty
  | .word verb :: rest => do return (verb, ← items rest)
  | _ :: _ => .error .missingVerb

namespace Shape

/-- Nothing behind the verb. -/
def nothing (verb : Verb) : List Item → Except ParseError Unit
  | [] => .ok ()
  | item :: _ => .error (.unexpected verb item.describe)

/-- Every item is a target. -/
def allTargets (verb : Verb) : List Item → Except ParseError (List Target)
  | [] => .ok []
  | .target t :: rest => do return t :: (← allTargets verb rest)
  | item :: _ => .error (.unexpected verb item.describe)

/-- One target or more. -/
def targets (verb : Verb) (its : List Item) : Except ParseError (List Target) :=
  if its.isEmpty then .error (.missingArgument verb "FILE or FOLDER target")
  else allTargets verb its

/-- Exactly one target. -/
def oneTarget (verb : Verb) (its : List Item) : Except ParseError Target := do
  match ← targets verb its with
  | [t] => return t
  | [] => throw (.missingArgument verb "FILE or FOLDER target")
  | _ => throw (.unexpected verb "a second target")

/-- At most the value of `key`. -/
def optionalKeyed (verb : Verb) (key : Key) : List Item → Except ParseError (Option String)
  | [] => .ok none
  | .keyed k value :: rest =>
    if k = key then
      match rest with
      | [] => .ok (some value)
      | item :: _ => .error (.unexpected verb item.describe)
    else .error (.unexpected verb (Item.keyed k value).describe)
  | item :: _ => .error (.unexpected verb item.describe)

/-- Exactly the value of `key`. -/
def keyed (verb : Verb) (key : Key) (its : List Item) : Except ParseError String := do
  match ← optionalKeyed verb key its with
  | some value => return value
  | none => throw (.missingArgument verb key.text)

/-- Targets, each with a prompt behind it. -/
def allAssignments (verb : Verb) : List Item → Except ParseError (List (Target × String))
  | [] => .ok []
  | .target t :: .keyed .prompt p :: rest => do return (t, p) :: (← allAssignments verb rest)
  | .target _ :: _ => .error (.missingArgument verb "PROMPT after each target")
  | item :: _ => .error (.unexpected verb item.describe)

/-- One target with a prompt or more. -/
def assignments (verb : Verb) (its : List Item) : Except ParseError (List (Target × String)) :=
  if its.isEmpty then .error (.missingArgument verb "FILE or FOLDER target")
  else allAssignments verb its

/-- Helper kinds, each with a prompt behind it. -/
def allOrders (verb : Verb) : List Item → Except ParseError (List HelperOrder)
  | [] => .ok []
  | .word word :: rest =>
    match HelperKind.ofText? word with
    | none => .error (.unknownHelper word)
    | some kind =>
      match rest with
      | .keyed .prompt p :: rest => do
        return { kind := kind, prompt := p } :: (← allOrders verb rest)
      | _ => .error (.missingArgument verb "PROMPT after each agent type")
  | item :: _ => .error (.unexpected verb item.describe)

/-- One helper kind with a prompt or more. -/
def orders (verb : Verb) (its : List Item) : Except ParseError (List HelperOrder) :=
  if its.isEmpty then .error (.missingArgument verb "agent type")
  else allOrders verb its

/-- One target and, behind it, at most its content. -/
def targetWithContent (verb : Verb) : List Item → Except ParseError (Target × Option String)
  | [] => .error (.missingArgument verb "FILE or FOLDER target")
  | first :: rest => do
    let target ← oneTarget verb [first]
    return (target, ← optionalKeyed verb .content rest)

end Shape

end Arbor.Directive
