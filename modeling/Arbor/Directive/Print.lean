import Arbor.Directive.Item

/-! # The canonical text of a directive

A directive is written as its verb and its arguments with one space between them. A report that is
empty and a content that is absent are left out. -/

namespace Arbor.Directive

/-- The text of a target. -/
def Target.print (t : Target) : String := t.noun ++ " " ++ quote t.name

/-- The text of a keyed value. -/
def printKeyed (key : Key) (value : String) : String := key.text ++ "=" ++ quote value

/-- The text of the order of one helper. -/
def HelperOrder.print (o : HelperOrder) : String :=
  o.kind.text ++ " " ++ printKeyed .prompt o.prompt

/-- The texts of the arguments. -/
def arguments {d : Dialect} : Directive d → List String
  | .read targets => targets.map Target.print
  | .run command => [printKeyed .command command]
  | .spawn orders => orders.map HelperOrder.print
  | .wait => []
  | .finish report => if report.isEmpty then [] else [printKeyed .prompt report]
  | .change content => [printKeyed .content content]
  | .create target content =>
    target.print :: (content.map (printKeyed .content)).toList
  | .delete target => [target.print]
  | .assign assignments => assignments.map fun a => a.1.print ++ " " ++ printKeyed .prompt a.2
  | .updateReadme content => [printKeyed .content content]
  | .delegate prompt => [printKeyed .prompt prompt]
  | .updateDocumentation content => [printKeyed .content content]
  | .message prompt => [printKeyed .prompt prompt]

/-- **The canonical text of a directive.** -/
def print {d : Dialect} (x : Directive d) : String :=
  String.intercalate " " (x.verb.text :: x.arguments)

end Arbor.Directive
