import Arbor.FileSystem
import Arbor.Shell.Stream

/-! # Patterns of file names

A pattern is a list of characters that are marked as live or taken as they stand. A live `*` matches
any characters, `?` one, and a bracket one of those that it lists. A name with a dot in front is
only matched by a pattern with a dot in front. -/

namespace Arbor.Shell

/-- A character of a pattern, and whether it is live. -/
abbrev Mark := Char × Bool

namespace Pattern

/-- The pattern that matches a text alone. -/
def literal (cs : List Char) : List Mark := cs.map fun c => (c, false)

/-- The text of a pattern. -/
def text (p : List Mark) : String := String.ofList (p.map Prod.fst)

/-- The pattern has a live character that matches others. -/
def isLive (p : List Mark) : Bool := p.any fun m => m.2 && "*?[".toList.contains m.1

/-- Whether a character is listed between brackets, as itself or in a range. -/
def isListed (c : Char) : List Char → Bool
  | a :: '-' :: b :: rest => (a ≤ c && c ≤ b) || isListed c rest
  | a :: rest => a == c || isListed c rest
  | [] => false

/-- The characters between brackets, whether they are excluded, and the pattern behind. -/
def readBracket (p : List Mark) : Option (List Char × Bool × List Mark) :=
  let negated := p.head?.any fun m => m.1 == '!' || m.1 == '^'
  let body := if negated then p.drop 1 else p
  let first := body.take 1
  let more := (body.drop 1).takeWhile fun m => m.1 != ']'
  match (body.drop 1).dropWhile fun m => m.1 != ']' with
  | _ :: rest => some ((first ++ more).map Prod.fst, negated, rest)
  | [] => none

/-- **The pattern matches a text.** -/
def isMatch : Nat → List Mark → List Char → Bool
  | 0, _, _ => false
  | _ + 1, [], cs => cs.isEmpty
  | fuel + 1, ('*', true) :: p, cs =>
    isMatch fuel p cs ||
      match cs with
      | [] => false
      | _ :: rest => isMatch fuel (('*', true) :: p) rest
  | fuel + 1, ('?', true) :: p, cs =>
    match cs with
    | [] => false
    | _ :: rest => isMatch fuel p rest
  | fuel + 1, ('[', true) :: p, cs =>
    match readBracket p, cs with
    | some (listed, negated, p), c :: rest => (isListed c listed != negated) && isMatch fuel p rest
    | some _, [] => false
    | none, c :: rest => c == '[' && isMatch fuel p rest
    | none, [] => false
  | fuel + 1, (a, _) :: p, cs =>
    match cs with
    | [] => false
    | c :: rest => a == c && isMatch fuel p rest

/-- The pattern matches all of some characters. -/
def fitsChars (p : List Mark) (cs : List Char) : Bool := isMatch (p.length + 2 * cs.length + 2) p cs

/-- The pattern matches the whole text, byte by byte. -/
def fits (p : List Mark) (s : String) : Bool :=
  fitsChars (p.flatMap fun m => (octetsOf m.1.toString).map fun c => (c, m.2)) (octetsOf s)

/-- The pattern matches the name of an entry. -/
def fitsName (p : List Mark) (name : String) : Bool :=
  (name.toList.head? != some '.' || p.head?.any fun m => m.1 == '.') && fits p name

/-- The names that a pattern between slashes matches in a folder. -/
def entries (fs : FileSystem) (dir : Path) (p : List Mark) : List String :=
  match fs.status true dir with
  | .ok (loc, .folder) => ([".", ".."] ++ (fs.children loc).map Prod.fst).filter (fitsName p)
  | _ => []

/-- The paths that the pieces of a pattern match, each written behind `front`. -/
def expand (fs : FileSystem) (cwd : Path) : String → List (List Mark) → List String
  | front, [] => [front]
  | front, piece :: rest =>
    let last := rest.isEmpty
    let names := if isLive piece then
      entries fs (cwd.join ⟨if front.isEmpty then "." else front⟩) piece
      else [text piece]
    let written := names.map fun n => front ++ n ++ if last then "" else "/"
    let there := written.filter fun w =>
      (fs.status false (cwd.join ⟨w⟩)).toOption.isSome || w = "/"
    there.flatMap fun w => expand fs cwd w rest

/-- **The paths that a pattern matches,** in order; the pattern itself if there are none. -/
def paths (fs : FileSystem) (cwd : Path) (p : List Mark) : List String :=
  if isLive p then
    match expand fs cwd "" (p.splitOnP fun m => m.1 == '/') with
    | [] => [text p]
    | found => found
  else [text p]

end Pattern

end Arbor.Shell
