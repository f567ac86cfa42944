import Arbor.Directive.Basic
import Arbor.Text.Quoted

/-! # Malformed directives

The reasons for which a text is not a directive, and their wording. None of them is fatal: the
message goes back to the agent as its next prompt. -/

namespace Arbor.Directive

/-- Why a text is not a directive. -/
inductive ParseError where
  /-- There is no token. -/
  | empty
  /-- The first token is not a word. -/
  | missingVerb
  /-- The first word is no verb of the dialect. -/
  | unknownVerb (word : String) (dialect : Dialect)
  /-- The text is not a sequence of tokens. -/
  | lexical (error : LexError)
  /-- `FILE` or `FOLDER` without a quoted name. -/
  | expectedName (noun : String)
  /-- A key without a quoted value. -/
  | expectedValue (key : String)
  /-- A word before `=` that is no key. -/
  | unknownKey (word : String)
  /-- A word that names no helper kind. -/
  | unknownHelper (word : String)
  /-- A quoted string that belongs to nothing. -/
  | strayString (value : String)
  /-- An equals sign without a key. -/
  | strayEquals
  /-- An argument that the verb needs is absent. -/
  | missingArgument (verb : Verb) (what : String)
  /-- An argument that the verb does not take. -/
  | unexpected (verb : Verb) (found : String)
  deriving DecidableEq, Repr

/-- The wording of an error. -/
def ParseError.message : ParseError → String
  | .empty => "empty response, expected a directive"
  | .missingVerb => "response must start with a directive verb"
  | .unknownVerb word d => "unknown verb " ++ word ++ "; expected one of " ++ d.verbList
  | .lexical (.unexpectedChar c offset) =>
    "unexpected character " ++ Text.showChar c ++ " at offset " ++ Nat.repr offset
  | .lexical (.unterminated offset) =>
    "unterminated string starting at offset " ++ Nat.repr offset
  | .expectedName noun => noun ++ " must be followed by a quoted name"
  | .expectedValue key => key ++ "= must be followed by a quoted value"
  | .unknownKey word => "unknown key " ++ word ++ "; expected PROMPT, CONTENT or COMMAND"
  | .unknownHelper word => "unknown agent type " ++ word ++ "; expected TESTER"
  | .strayString value =>
    "quoted string \"" ++ value ++ "\" is not attached to FILE, FOLDER or a KEY="
  | .strayEquals => "'=' without a key"
  | .missingArgument verb what => verb.text ++ " is missing its " ++ what
  | .unexpected verb found => verb.text ++ " does not accept " ++ found

end Arbor.Directive
