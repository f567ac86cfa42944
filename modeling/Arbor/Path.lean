/-! # Paths

A path is kept as it is written; what it means is its list of components. Repeated and trailing
slashes carry no meaning, nor does a `.` behind the first component. All comparisons of paths are
comparisons of components.

* `normalize` drops `.` and folds `..` without looking at the file system; a `..` with nothing to
  fold stays.
* `contains` decides whether a path lies in a scope or is the scope, after both are normalized.
* `join`, `parent?` and `fileName?` work on the written form, so the parts that they do not touch
  are kept as they were. -/

namespace Arbor

/-- One step of a path. -/
inductive Component where
  /-- The slash in front of an absolute path. -/
  | root
  /-- A `.` in front of a relative path. -/
  | here
  /-- A `..`. -/
  | up
  /-- The name of an entry. -/
  | name (text : String)
  deriving DecidableEq, Repr

/-- The text of a component. -/
def Component.text : Component → String
  | .root => "/"
  | .here => "."
  | .up => ".."
  | .name s => s

/-- A path as it is written. -/
structure Path where
  text : String
  deriving DecidableEq, Repr

namespace Path

/-- The pieces of a path between its slashes. -/
def pieces (p : Path) : List String := (p.text.toList.splitOn '/').map String.ofList

/-- The path starts at the root of the file system. -/
def isAbsolute (p : Path) : Bool := p.text.toList.head? == some '/'

/-- The component of a piece that is not the first. -/
def innerComponent? (piece : String) : Option Component :=
  if piece = "" || piece = "." then none
  else if piece = ".." then some .up
  else some (.name piece)

/-- The component of the first piece of a relative path. -/
def firstComponent? (piece : String) : Option Component :=
  if piece = "." then some .here else innerComponent? piece

/-- **The components of a path.** -/
def components (p : Path) : List Component :=
  match p.pieces with
  | [] => []
  | first :: rest =>
    if p.isAbsolute then .root :: rest.filterMap innerComponent?
    else (firstComponent? first).toList ++ rest.filterMap innerComponent?

/-- The path of a list of components. -/
def ofComponents : List Component → Path
  | .root :: rest => ⟨"/" ++ String.intercalate "/" (rest.map Component.text)⟩
  | cs => ⟨String.intercalate "/" (cs.map Component.text)⟩

/-- Puts one component on a normal path, the last component first. -/
def pushComponent (stack : List Component) (c : Component) : List Component :=
  match c with
  | .here => stack
  | .up =>
    match stack with
    | .name _ :: rest => rest
    | stack => .up :: stack
  | c => c :: stack

/-- The components of the normal form. -/
def normalComponents (p : Path) : List Component := (p.components.foldl pushComponent []).reverse

/-- **The normal form of a path.** -/
def normalize (p : Path) : Path := ofComponents p.normalComponents

/-- The path is written as that of a folder: with a slash at its end. -/
def asksFolder (p : Path) : Bool := p.text.toList.getLast? == some '/'

/-- The steps of a path as a file system takes them: its pieces, dots among them. -/
def steps (p : Path) : List String := p.pieces.filter fun piece => !piece.isEmpty

/-- Two paths with the same components. -/
def same (p q : Path) : Bool := p.components = q.components

/-- **The path lies in the scope or is the scope.** -/
def contains (scope p : Path) : Bool := scope.normalComponents.isPrefixOf p.normalComponents

/-- A path behind another; an absolute one stands alone. -/
def join (p q : Path) : Path :=
  if q.isAbsolute then q
  else if p.text.isEmpty || p.text.toList.getLast? == some '/' then ⟨p.text ++ q.text⟩
  else ⟨p.text ++ "/" ++ q.text⟩

/-- A name behind a path. -/
def joinName (p : Path) (name : String) : Path := p.join ⟨name⟩

/-- The last component, if it is a name. -/
def fileName? (p : Path) : Option String :=
  match p.components.getLast? with
  | some (.name s) => some s
  | _ => none

/-- Drops the pieces at the end that carry no component; the pieces come last first. -/
def dropSilent (pieces : List String) : List String :=
  pieces.dropWhile fun piece => piece = "" || piece = "."

/-- The written form without the last component; nothing if there is none to drop. -/
def parent? (p : Path) : Option Path :=
  match p.components.getLast? with
  | none => none
  | some .root => none
  | some _ =>
    let text := String.intercalate "/" (dropSilent ((dropSilent p.pieces.reverse).drop 1)).reverse
    if p.isAbsolute then
      some (if text.isEmpty then ⟨"/"⟩ else ⟨text⟩)
    else
      match p.components with
      | .here :: _ :: _ => some (if text.isEmpty then ⟨"."⟩ else ⟨text⟩)
      | _ => some ⟨text⟩

/-- The name before the last dot and what stands behind it. A dot in front of a name divides
nothing. -/
def splitExtension (name : String) : String × Option String :=
  let cs := name.toList
  let behind := (cs.reverse.takeWhile (· != '.')).reverse
  let before := (cs.reverse.dropWhile (· != '.')).reverse
  if before.length ≤ 1 then (name, none)
  else (String.ofList before.dropLast, some (String.ofList behind))

/-- The file name without its extension. -/
def fileStem? (p : Path) : Option String := p.fileName?.map fun n => (splitExtension n).1

/-- The extension of the file name. -/
def extension? (p : Path) : Option String := p.fileName?.bind fun n => (splitExtension n).2

end Path

end Arbor
