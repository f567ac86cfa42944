import Arbor.Yaml.Token

/-! # Settings documents

A document is a tree of scalars, lists and maps, written in blocks by indentation or in brackets.
Anchors name a node and aliases repeat it; tags are passed over, but their handles have to be known.
`document?` reads a text that holds at most one document; the wording of mistakes is not fixed, so a
mistake is only the absence of a result. -/

namespace Arbor.Yaml

/-- A node of a document. -/
inductive Node where
  | scalar (text : String) (isPlain : Bool)
  | list (items : List Node)
  | map (pairs : List (Node × Node))
  /-- An alias for a node that it is itself part of. -/
  | enclosing
  deriving Repr

namespace Node

/-- The node of nothing. -/
def absent : Node := .scalar "" true

/-- The node is nothing at all: a plain scalar without a text. -/
def isAbsent : Node → Bool
  | .scalar text isPlain => isPlain && text.isEmpty
  | _ => false

end Node

/-- How far the tokens have been read, and what has a name. -/
structure Reading where
  tokens : List Token
  /-- Names in the order in which they were given, the latest first. -/
  names : List String
  /-- The nodes of names that are complete, by how many names came before. -/
  nodes : List (Nat × Node)
  /-- The handles that tags may have. -/
  handles : List String

namespace Reading

/-- The token that comes next. -/
def peek (r : Reading) : Token := r.tokens.headD .streamEnd

/-- Passes over a token. -/
def skip (r : Reading) : Reading := { r with tokens := r.tokens.drop 1 }

/-- Passes over a token that has to come. -/
def expect (t : Token) (r : Reading) : Option Reading := if r.peek = t then some r.skip else none

/-- Gives a name to the node that comes next. -/
def enter (r : Reading) (name : Option String) : Reading :=
  { r with names := name.toList ++ r.names }

/-- Keeps a node under the name that it was given when `before` names had been given. -/
def leave (r : Reading) (name : Option String) (before : Nat) (node : Node) : Reading :=
  if name.isSome then { r with nodes := (before, node) :: r.nodes } else r

/-- The node of a name. -/
def node? (r : Reading) (name : String) : Option Node :=
  (r.names.idxOf? name).map fun i => (r.nodes.lookup (r.names.length - 1 - i)).getD .enclosing

end Reading

/-- The anchor and the tag in front of a node, in any order. -/
structure Properties where
  anchor : Option String
  tagged : Bool

/-- There is an anchor or a tag. -/
def Properties.isAny (p : Properties) : Bool := p.anchor.isSome || p.tagged

/-- Reads the tag that may come next. -/
def readTag (p : Properties) (r : Reading) : Option (Properties × Reading) :=
  match r.peek with
  | .tag handle =>
    if handle.isEmpty || r.handles.contains handle then some ({ p with tagged := true }, r.skip)
    else none
  | _ => some (p, r)

/-- Reads the anchor that may come next. -/
def readAnchor (p : Properties) (r : Reading) : Properties × Reading :=
  match r.peek with
  | .anchor name => ({ p with anchor := some name }, r.skip)
  | _ => (p, r)

/-- Reads the anchor and the tag in front of a node. -/
def readProperties (r : Reading) : Option (Properties × Reading) := do
  let none : Properties := { anchor := Option.none, tagged := false }
  match r.peek with
  | .anchor _ =>
    let (p, r) := readAnchor none r
    readTag p r
  | .tag _ => do
    let (p, r) ← readTag none r
    return readAnchor p r
  | _ => return (none, r)

/-- What kinds of blocks a node may be. -/
inductive Place where
  | brackets
  | block
  /-- The key or the value of a map, where a list needs no further indentation. -/
  | entry
  deriving DecidableEq, Repr

mutual

/-- A node. -/
def readNode : Nat → Place → Reading → Option (Node × Reading)
  | 0, _, _ => none
  | fuel + 1, place, r =>
    match r.peek with
    | .alias name => (r.node? name).map fun node => (node, r.skip)
    | _ => do
      let (p, r) ← readProperties r
      let before := r.names.length
      let r := r.enter p.anchor
      let (node, r) ←
        match place, r.peek with
        | .entry, .item => readOpenItems fuel [] r
        | _, .scalar text isPlain => some (.scalar text isPlain, r.skip)
        | _, .bracketListStart => readBracketItems fuel [] r.skip
        | _, .bracketMapStart => readBracketPairs fuel [] r.skip
        | .block, .listStart => readItems fuel [] r.skip
        | .entry, .listStart => readItems fuel [] r.skip
        | .block, .mapStart => readPairs fuel [] r.skip
        | .entry, .mapStart => readPairs fuel [] r.skip
        | _, _ => if p.isAny then some (Node.absent, r) else none
      return (node, r.leave p.anchor before node)

/-- A node, or nothing in front of one of some tokens. -/
def readUnless : Nat → Place → List Token → Reading → Option (Node × Reading)
  | 0, _, _, _ => none
  | fuel + 1, place, ends, r =>
    if ends.contains r.peek then some (.absent, r) else readNode fuel place r

/-- The items of a list, with dashes, up to its end. -/
def readItems : Nat → List Node → Reading → Option (Node × Reading)
  | 0, _, _ => none
  | fuel + 1, items, r =>
    match r.peek with
    | .item => do
      let (node, r) ← readUnless fuel .block [.item, .blockEnd] r.skip
      readItems fuel (items ++ [node]) r
    | .blockEnd => some (.list items, r.skip)
    | _ => none

/-- The items of a list that is not indented any further. -/
def readOpenItems : Nat → List Node → Reading → Option (Node × Reading)
  | 0, _, _ => none
  | fuel + 1, items, r =>
    match r.peek with
    | .item => do
      let (node, r) ← readUnless fuel .block [.item, .key, .value, .blockEnd] r.skip
      readOpenItems fuel (items ++ [node]) r
    | _ => some (.list items, r)

/-- The pairs of a map up to its end. -/
def readPairs : Nat → List (Node × Node) → Reading → Option (Node × Reading)
  | 0, _, _ => none
  | fuel + 1, pairs, r =>
    match r.peek with
    | .key => do
      let (k, r) ← readUnless fuel .entry [.key, .value, .blockEnd] r.skip
      let (v, r) ←
        if r.peek = .value then readUnless fuel .entry [.key, .value, .blockEnd] r.skip
        else some (.absent, r)
      readPairs fuel (pairs ++ [(k, v)]) r
    | .blockEnd => some (.map pairs, r.skip)
    | _ => none

/-- The items of a list in brackets. An item may be a single pair. -/
def readBracketItems : Nat → List Node → Reading → Option (Node × Reading)
  | 0, _, _ => none
  | fuel + 1, items, r =>
    if r.peek = .bracketListEnd then some (.list items, r.skip)
    else do
      let r ← if items.isEmpty then some r else r.expect .comma
      match r.peek with
      | .bracketListEnd => return (.list items, r.skip)
      | .key => do
        let (pair, r) ← readSinglePair fuel r.skip
        readBracketItems fuel (items ++ [.map [pair]]) r
      | _ => do
        let (node, r) ← readNode fuel .brackets r
        readBracketItems fuel (items ++ [node]) r

/-- A pair that is an item of a list. If its key is missing, the token in its place is passed
over. -/
def readSinglePair : Nat → Reading → Option ((Node × Node) × Reading)
  | 0, _ => none
  | fuel + 1, r => do
    let (k, r) ←
      if [Token.value, .comma, .bracketListEnd].contains r.peek then some (.absent, r.skip)
      else readNode fuel .brackets r
    let (v, r) ←
      if r.peek = .value then readUnless fuel .brackets [.comma, .bracketListEnd] r.skip
      else some (.absent, r)
    return ((k, v), r)

/-- The pairs of a map in brackets. A key may stand alone. -/
def readBracketPairs : Nat → List (Node × Node) → Reading → Option (Node × Reading)
  | 0, _, _ => none
  | fuel + 1, pairs, r =>
    if r.peek = .bracketMapEnd then some (.map pairs, r.skip)
    else do
      let r ← if pairs.isEmpty then some r else r.expect .comma
      match r.peek with
      | .bracketMapEnd => return (.map pairs, r.skip)
      | .key => do
        let (k, r) ← readUnless fuel .brackets [.value, .comma, .bracketMapEnd] r.skip
        let (v, r) ←
          if r.peek = .value then readUnless fuel .brackets [.comma, .bracketMapEnd] r.skip
          else some (.absent, r)
        readBracketPairs fuel (pairs ++ [(k, v)]) r
      | _ => do
        let (k, r) ← readNode fuel .brackets r
        readBracketPairs fuel (pairs ++ [(k, .absent)]) r

end

/-- The handles that need no declaration. -/
def commonHandles : List String := ["!", "!!"]

/-- Reads the declarations in front of a document: at most one version, which has to be known, and
each handle at most once. -/
def readDeclarations : Nat → Bool → List String → Reading → Option Reading
  | 0, _, _, _ => none
  | fuel + 1, versioned, declared, r =>
    match r.peek with
    | .version major minor =>
      if versioned || major ≠ 1 || (minor ≠ 1 && minor ≠ 2) then none
      else readDeclarations fuel true declared r.skip
    | .declaration handle =>
      if declared.contains handle then none
      else readDeclarations fuel versioned (handle :: declared) r.skip
    | _ => some { r with handles := declared ++ commonHandles }

/-- The tokens that cannot start the content of a document. -/
def endsDocument : Token → Bool
  | .version _ _ => true
  | .declaration _ => true
  | .documentStart => true
  | .documentEnd => true
  | .streamEnd => true
  | _ => false

/-- The document of some tokens, and the tokens behind it; nothing if they hold none. -/
def readDocument (r : Reading) : Option (Option Node × Reading) :=
  let fuel := 4 * r.tokens.length + 4
  match r.peek with
  | .streamEnd => some (none, r)
  | t =>
    if !endsDocument t || t = .documentEnd then do
      let (node, r) ← readNode fuel .block r
      return (some node, r)
    else do
      let r ← readDeclarations fuel false [] r
      let r ← r.expect .documentStart
      if endsDocument r.peek then return (some .absent, r)
      let (node, r) ← readNode fuel .block r
      return (some node, r)

/-- **The document of a text,** if it holds one and no more than one. -/
def document? (text : String) : Option (Option Node) := do
  let tokens ← Token.scan? text.toList
  let start : Reading := { tokens := tokens, names := [], nodes := [], handles := commonHandles }
  let (node, r) ← readDocument start
  let behind := r.tokens.dropWhile (· = .documentEnd)
  if behind = [.streamEnd] then return node else none

end Arbor.Yaml
