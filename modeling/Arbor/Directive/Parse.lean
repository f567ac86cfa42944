import Arbor.Directive.Item

/-! # Reading a model reply as a directive

Models wrap a directive in a code fence or put prose before it. `body` removes both: it strips one
surrounding fence, and if what is left does not start with a verb of the dialect it goes on to the
first line that does. `parse` reads the body as tokens, the tokens as a verb with items, and checks
the items against the verb. -/

namespace Arbor.Directive

open Arbor.Text

/-- A character of the language name behind an opening fence. -/
def isFenceInfo (c : Char) : Bool := c.isAlphanum || c == '_' || c == '-'

/-- The three backquotes of a fence. -/
def fence : List Char := "```".toList

/-- The text behind the line of an opening fence. -/
def behindFence? (cs : List Char) : Option (List Char) :=
  if fence.isPrefixOf cs then
    match ((cs.drop 3).dropWhile isFenceInfo).dropWhile fun c => c == ' ' || c == '\t' with
    | '\n' :: rest => some rest
    | '\r' :: '\n' :: rest => some rest
    | _ => none
  else none

/-- The text between an opening fence and a closing one at the very end. -/
def unfence? (cs : List Char) : Option (List Char) := do
  let rest ← behindFence? cs
  if fence.isSuffixOf rest then some (rest.take (rest.length - 3)) else none

/-- Whether a text starts with a verb of the dialect, as a whole word in any case. -/
def startsWithVerb (d : Dialect) (cs : List Char) : Bool :=
  (d.verb? (String.ofList (upperChars (cs.takeWhile isWordChar)))).isSome &&
    endsWord (cs.dropWhile isWordChar)

/-- The text from the first line on that starts with a verb, blanks before it aside. -/
def fromVerbLine? (d : Dialect) (cs : List Char) : Option (List Char) :=
  match cs with
  | [] => none
  | c :: rest =>
    if startsWithVerb d (trimStartChars ((c :: rest).takeWhile (· != '\n'))) then some (c :: rest)
    else fromVerbLine? d (((c :: rest).dropWhile (· != '\n')).drop 1)
  termination_by cs.length
  decreasing_by
    simp_wf
    by_cases h : c = '\n'
    · simp [h]
    · have : (rest.dropWhile (· != '\n')).length ≤ rest.length :=
        (List.dropWhile_suffix _).length_le
      simp [h]
      omega

/-- The part of a reply that holds the directive. -/
def body (d : Dialect) (text : List Char) : List Char :=
  let trimmed := trimChars text
  let inner := ((unfence? trimmed).map trimChars).getD trimmed
  if startsWithVerb d inner then inner
  else ((fromVerbLine? d inner).map trimChars).getD inner

/-- The directive of a verb and its items. -/
def ofItems (d : Dialect) (verb : Verb) (its : List Item) : Except ParseError (Directive d) :=
  match d, verb with
  | _, .read => .read <$> Shape.targets verb its
  | _, .run => .run <$> Shape.keyed verb .command its
  | _, .spawn => .spawn <$> Shape.orders verb its
  | _, .wait => (fun _ => .wait) <$> Shape.nothing verb its
  | _, .finish => (fun p => .finish (p.getD "")) <$> Shape.optionalKeyed verb .prompt its
  | .coder, .change => .change <$> Shape.keyed verb .content its
  | .manager, .create => (fun p => .create p.1 p.2) <$> Shape.targetWithContent verb its
  | .manager, .delete => .delete <$> Shape.oneTarget verb its
  | .manager, .delegate => .assign <$> Shape.assignments verb its
  | .manager, .updateReadme => .updateReadme <$> Shape.keyed verb .content its
  | .master, .delegate => .delegate <$> Shape.keyed verb .prompt its
  | .master, .updateDocumentation => .updateDocumentation <$> Shape.keyed verb .content its
  | .master, .message => .message <$> Shape.keyed verb .prompt its
  | d, verb => .error (.unknownVerb verb.text d)

/-- The directive of a list of tokens. -/
def ofTokens (d : Dialect) (tokens : List Token) : Except ParseError (Directive d) := do
  let (word, its) ← split tokens
  match d.verb? word with
  | some verb => ofItems d verb its
  | none => throw (.unknownVerb word d)

/-- **The directive of a model reply.** -/
def parse (d : Dialect) (text : String) : Except ParseError (Directive d) :=
  match tokenize (body d text.toList) with
  | .error e => .error (.lexical e)
  | .ok tokens => ofTokens d tokens

end Arbor.Directive
