/-! # Regular expressions

The expressions of programs that search, in the basic, the extended and the rich spelling. Matching
takes the leftmost match and, of those, one in which earlier choices and repetitions are as long as
they can be; in the rich spelling the first choice that leads to a match is taken. -/

namespace Arbor.Shell

/-- A set of characters. -/
inductive CharSet where
  | any
  | exactly (c : Char)
  /-- The characters of some ranges, or all others. -/
  | ranges (rs : List (Char × Char)) (negated : Bool)

/-- The character is in the set. -/
def CharSet.holds (s : CharSet) (c : Char) : Bool :=
  match s with
  | .any => true
  | .exactly d => c == d
  | .ranges rs negated => (rs.any fun r => r.1 ≤ c && c ≤ r.2) != negated

/-- A place between characters. -/
inductive Regex.Edge where
  | textStart
  | textEnd
  | lineStart
  | lineEnd
  | wordStart
  | wordEnd
  | word
  | noWord
  deriving DecidableEq, Repr

/-- A regular expression. -/
inductive Regex where
  | nothing
  | one (s : CharSet)
  | followed (a b : Regex)
  /-- One of two; the first that matches if `ordered`, else the one that leads farther. -/
  | either (ordered : Bool) (a b : Regex)
  /-- At least `least` and, if there is a limit, at most `most` times; as few as possible if
  `lazy`. -/
  | repeated (lazy : Bool) (a : Regex) (least : Nat) (most : Option Nat)
  /-- A part whose match is remembered under a number. -/
  | group (number : Nat) (a : Regex)
  /-- What a group has matched. -/
  | same (number : Nat)
  | edge (e : Regex.Edge)
  /-- Something follows, or does not, and is not part of the match. -/
  | ahead (negated : Bool) (a : Regex)
  /-- Something comes before, or does not. -/
  | before (negated : Bool) (a : Regex)

namespace Regex

/-- How expressions are written. -/
inductive Spelling where
  | basic
  | extended
  /-- The extended spelling, in which each sign has to be in its place. -/
  | strict
  /-- The extended spelling, in which a backslash makes any character stand for itself, between
  brackets too, and letters behind it stand for characters that cannot be shown. -/
  | escaped
  | rich
  deriving DecidableEq, Repr

/-- Why a text is no expression. -/
inductive Fault where
  | unmatchedOpening
  | unmatchedClosing
  | unmatchedBracket
  | loneBracket
  | unmatchedBrace
  | badBounds
  | badRange
  | badClass
  /-- A class outside of brackets. -/
  | bareClass
  | badReference
  | nothingToRepeat
  | trailingBackslash
  deriving DecidableEq, Repr

/-- A fault in words. -/
def Fault.message : Fault → String
  | .unmatchedOpening => "Unmatched ( or \\("
  | .unmatchedClosing => "Unmatched ) or \\)"
  | .unmatchedBracket => "Unmatched [, [^, [:, [., or [="
  | .loneBracket => "Invalid regular expression"
  | .unmatchedBrace => "Unmatched \\\x7b"
  | .badBounds => "Invalid content of \\\x7b\\\x7d"
  | .badRange => "Invalid range end"
  | .badClass => "Invalid character class name"
  | .bareClass => "character class syntax is [[:space:]], not [:space:]"
  | .badReference => "Invalid back reference"
  | .nothingToRepeat => "Invalid preceding regular expression"
  | .trailingBackslash => "Trailing backslash"

/-! ### Reading -/

/-- The classes of characters by name. -/
def classes : List (String × List (Char × Char)) :=
  [("alpha", [('a', 'z'), ('A', 'Z')]), ("digit", [('0', '9')]),
    ("alnum", [('a', 'z'), ('A', 'Z'), ('0', '9')]), ("upper", [('A', 'Z')]),
      ("lower", [('a', 'z')]),
    ("space", [(' ', ' '), ('\t', '\r')]), ("blank", [(' ', ' '), ('\t', '\t')]),
    ("xdigit", [('0', '9'), ('a', 'f'), ('A', 'F')]),
    ("punct", [('!', '/'), (':', '@'), ('[', '\x60'), ('\x7b', '~')]), ("print", [(' ', '~')]),
    ("graph", [('!', '~')]),
      ("cntrl", [(Char.ofNat 0, Char.ofNat 31), (Char.ofNat 127, Char.ofNat 127)])]

/-- The characters of words. -/
def wordRanges : List (Char × Char) := [('a', 'z'), ('A', 'Z'), ('0', '9'), ('_', '_')]

/-- The blanks. -/
def spaceRanges : List (Char × Char) := [(' ', ' '), ('\t', '\r')]

/-- The sets that a letter behind a backslash stands for. -/
def letterSet? (s : Spelling) (c : Char) : Option CharSet :=
  if s = .escaped then none else
  match c with
  | 'w' => some (.ranges wordRanges false)
  | 'W' => some (.ranges wordRanges true)
  | 's' => some (.ranges spaceRanges false)
  | 'S' => some (.ranges spaceRanges true)
  | 'd' => if s = .rich then some (.ranges [('0', '9')] false) else none
  | 'D' => if s = .rich then some (.ranges [('0', '9')] true) else none
  | _ => none

/-- The character of an escape, behind its backslash, and the rest. -/
def readEscape : List Char → Char × List Char
  | [] => ('\\', [])
  | c :: rest =>
    let digits := ((c :: rest).take 3).takeWhile fun d => '0' ≤ d && d ≤ '7'
    if !digits.isEmpty then
      (Char.ofNat (digits.foldl (fun n d => 8 * n + (d.toNat - 48)) 0 % 256),
        (c :: rest).drop digits.length)
    else
      let x := match c with
        | 'a' => Char.ofNat 7
        | 'b' => Char.ofNat 8
        | 'f' => Char.ofNat 12
        | 'n' => '\n'
        | 'r' => '\r'
        | 't' => '\t'
        | 'v' => Char.ofNat 11
        | c => c
      (x, rest)

/-- The ranges between brackets up to the closing one, and the rest. In the rich and the escaped
spelling a backslash escapes. -/
def readRanges (s : Spelling) : Nat → List Char → Except Fault (List (Char × Char) × List Char)
  | 0, _ => .error .unmatchedBracket
  | _, [] => .error .unmatchedBracket
  | _ + 1, ']' :: rest => .ok ([], rest)
  | fuel + 1, '[' :: ':' :: rest => do
    let name := rest.takeWhile (· != ':')
    match rest.drop name.length, classes.lookup (String.ofList name) with
    | ':' :: ']' :: rest, some ranges => do
      let (more, rest) ← readRanges s fuel rest
      return (ranges ++ more, rest)
    | ':' :: ']' :: _, none => .error .badClass
    | _, _ => .error .unmatchedBracket
  | fuel + 1, '[' :: '=' :: c :: '=' :: ']' :: rest => do
    let (more, rest) ← readRanges s fuel rest
    return ((c, c) :: more, rest)
  | fuel + 1, a :: rest => do
    if s = .rich && a == '\\' then
      match rest with
      | [] => .error .unmatchedBracket
      | c :: rest => do
        let here := match letterSet? s c with
          | some (.ranges rs false) => rs
          | _ => if c == 'n' then [('\n', '\n')] else if c == 't' then [('\t', '\t')] else [(c, c)]
        let (more, rest) ← readRanges s fuel rest
        return (here ++ more, rest)
    else if s = .escaped && a == '\\' then do
      let (x, behind) := readEscape rest
      let (more, rest) ← readRanges s fuel (if behind.length < rest.length then behind else [])
      return ((x, x) :: more, rest)
    else
      match rest with
      | '-' :: b :: behind =>
        if b == ']' then do
          let (more, rest) ← readRanges s fuel rest
          return ((a, a) :: more, rest)
        else if b < a then .error .badRange
        else do
          let (more, rest) ← readRanges s fuel behind
          return ((a, b) :: more, rest)
      | rest => do
        let (more, rest) ← readRanges s fuel rest
        return ((a, a) :: more, rest)

/-- The set between brackets, behind the opening one. A closing bracket in front stands for
itself. -/
def readSet (s : Spelling) (cs : List Char) : Except Fault (CharSet × List Char) := do
  if cs.isEmpty then .error .loneBracket
  if cs.head? = some ':' && s != .rich && s != .escaped then
    match cs.drop 1 |>.dropWhile Char.isAlpha with
    | ':' :: ']' :: _ => .error .bareClass
    | _ => pure ()
  let (negated, cs) := match cs with
    | '^' :: rest => (true, rest)
    | cs => (false, cs)
  let (first, cs) := match cs with
    | ']' :: rest => ([(']', ']')], rest)
    | cs => ([], cs)
  let (ranges, rest) ← readRanges s (cs.length + 1) cs
  return (.ranges (first ++ ranges) negated, rest)

/-- The sign that opens or closes something: escaped in the basic spelling, else bare. -/
def sign? (s : Spelling) (cs : List Char) : Option (Char × List Char) :=
  match s, cs with
  | .basic, '\\' :: c :: rest => if "()\x7b|+?".toList.contains c then some (c, rest) else none
  | .basic, _ => none
  | _, c :: rest => if "()\x7b|+?".toList.contains c then some (c, rest) else none
  | _, [] => none

/-- The bounds of a repetition, behind the opening brace; nothing if the brace stands for itself. -/
def readBounds (s : Spelling) (cs : List Char) :
    Except Fault (Option (Nat × Option Nat × List Char)) :=
  let number := fun (ds : List Char) => ((String.ofList ds).toNat?).getD 0
  let low := cs.takeWhile Char.isDigit
  let behind := cs.dropWhile Char.isDigit
  let (most, behind) := match behind with
    | ',' :: rest =>
      let digits := rest.takeWhile Char.isDigit
      (if digits.isEmpty then none else some (number digits), rest.dropWhile Char.isDigit)
    | rest => (some (number low), rest)
  let closed : Option (List Char) := match s, behind with
    | .basic, '\\' :: '\x7d' :: rest => some rest
    | .basic, _ => none
    | _, '\x7d' :: rest => some rest
    | _, _ => none
  let empty := low.isEmpty && cs.head? != some ','
  match closed with
  | some rest =>
    if empty then if s = .basic then .error .badBounds else .ok none
    else if most.any fun m => m < number low then .error .badBounds
    else .ok (some (number low, most, rest))
  | none => if s = .basic then .error .unmatchedBrace else .ok none

/-- The repetitions behind an expression. -/
def readRepeats (s : Spelling) : Nat → Regex → List Char → Except Fault (Regex × List Char)
  | 0, r, cs => .ok (r, cs)
  | fuel + 1, r, cs => do
    let again := fun (least : Nat) (most : Option Nat) (rest : List Char) =>
      match s, rest with
      | .rich, '?' :: rest => readRepeats s fuel (.repeated true r least most) rest
      | _, rest => readRepeats s fuel (.repeated false r least most) rest
    match cs with
    | '*' :: rest => again 0 none rest
    | cs =>
      match sign? s cs with
      | some ('+', rest) => again 1 none rest
      | some ('?', rest) => again 0 (some 1) rest
      | some ('\x7b', rest) =>
        match ← readBounds s rest with
        | some (least, most, rest) => again least most rest
        | none => return (r, cs)
      | _ => return (r, cs)

/-- The place that a letter behind a backslash stands for. -/
def edge? : Char → Option Edge
  | '<' => some .wordStart
  | '>' => some .wordEnd
  | 'b' => some .word
  | 'B' => some .noWord
  | '\x60' => some .textStart
  | '\'' => some .textEnd
  | _ => none

/-- A single character, set or place at the front; `groups` is the number of groups so far. -/
def readOne (s : Spelling) (groups : Nat) (cs : List Char) : Except Fault (Regex × List Char) :=
  match cs with
  | [] => .ok (.nothing, [])
  | '.' :: rest => .ok (.one .any, rest)
  | ['\\'] => if s = .escaped then .ok (.one (.exactly '\\'), []) else .error .trailingBackslash
  | '\\' :: c :: rest =>
    if s = .escaped then
      let (x, rest) := readEscape (c :: rest)
      .ok (.one (.exactly x), rest)
    else
    match letterSet? s c, edge? c with
    | some set, _ => .ok (.one set, rest)
    | none, some e => .ok (.edge e, rest)
    | none, none =>
      if '1' ≤ c && c ≤ '9' then
        if c.toNat - 48 ≤ groups then .ok (.same (c.toNat - 48), rest) else .error .badReference
      else if c == 'n' then .ok (.one (.exactly '\n'), rest)
      else if c == 't' then .ok (.one (.exactly '\t'), rest)
      else .ok (.one (.exactly c), rest)
  | '[' :: rest => do
    let (set, rest) ← readSet s rest
    return (.one set, rest)
  | c :: rest => .ok (.one (.exactly c), rest)

/-- The kinds of groups that are not remembered, by what stands behind the opening sign. -/
def special? (s : Spelling) (cs : List Char) : Option ((Regex → Regex) × List Char) :=
  if s != .rich then none
  else
    match cs with
    | '?' :: ':' :: rest => some (fun r => r, rest)
    | '?' :: '=' :: rest => some (.ahead false, rest)
    | '?' :: '!' :: rest => some (.ahead true, rest)
    | '?' :: '<' :: '=' :: rest => some (.before false, rest)
    | '?' :: '<' :: '!' :: rest => some (.before true, rest)
    | _ => none

mutual

/-- Alternatives up to a closing sign or the end; `groups` counts the groups so far, and `depth`
those that are open. -/
def readChoice (s : Spelling) (depth : Nat) :
    Nat → Nat → List Char → Except Fault (Regex × Nat × List Char)
  | 0, groups, cs => .ok (.nothing, groups, cs)
  | fuel + 1, groups, cs => do
    let (first, groups, rest) ← readChain s depth fuel groups true cs
    match sign? s rest with
    | some ('|', rest) => do
      let (second, groups, rest) ← readChoice s depth fuel groups rest
      return (.either (s = .rich) first second, groups, rest)
    | _ => return (first, groups, rest)

/-- Expressions one behind the other; a star at the start stands for itself. -/
def readChain (s : Spelling) (depth : Nat) :
    Nat → Nat → Bool → List Char → Except Fault (Regex × Nat × List Char)
  | 0, groups, _, cs => .ok (.nothing, groups, cs)
  | _ + 1, groups, _, [] => .ok (.nothing, groups, [])
  | fuel + 1, groups, atStart, c :: cs => do
    let ends := cs.isEmpty || (sign? s cs).any fun t => t.1 == ')' || t.1 == '|'
    let bare := s != .basic
    match sign? s (c :: cs) with
    | some ('|', _) => return (.nothing, groups, c :: cs)
    | some ('(', rest) => do
      let (wrap, number, rest) := match special? s rest with
        | some (wrap, rest) => (wrap, groups, rest)
        | none => (Regex.group (groups + 1), groups + 1, rest)
      let (inner, after, rest) ← readChoice s (depth + 1) fuel number rest
      match sign? s rest with
      | some (')', rest) => do
        let (r, rest) ← readRepeats s (rest.length + 1) (wrap inner) rest
        let (more, groups, rest) ← readChain s depth fuel after false rest
        return (.followed r more, groups, rest)
      | _ => .error .unmatchedOpening
    | some (')', rest) =>
      if depth ≠ 0 then return (.nothing, groups, c :: cs)
      else if bare && s != .strict then do
        let (r, rest) ← readRepeats s (rest.length + 1) (.one (.exactly ')')) rest
        let (more, groups, rest) ← readChain s depth fuel groups false rest
        return (.followed r more, groups, rest)
      else .error .unmatchedClosing
    | _ =>
      if c == '^' && (atStart || bare) then do
        let (more, groups, rest) ← readChain s depth fuel groups true cs
        return (.followed (.edge .textStart) more, groups, rest)
      else if c == '$' && (bare || ends) then do
        let (more, groups, rest) ← readChain s depth fuel groups false cs
        return (.followed (.edge .textEnd) more, groups, rest)
      else if bare && atStart && "*+?".toList.contains c then
        if s = .strict || s = .escaped then .error .nothingToRepeat
          else readChain s depth fuel groups true cs
      else do
        let (r, rest) ← if c == '*' && atStart then pure (.one (.exactly '*'), cs)
          else readOne s groups (c :: cs)
        let (r, rest) ← readRepeats s (rest.length + 1) r rest
        let (more, groups, rest) ← readChain s depth fuel groups false rest
        return (.followed r more, groups, rest)

end

/-- **The expression of a text.** -/
def parse (s : Spelling) (cs : List Char) : Except Fault Regex := do
  let (r, _, _) ← readChoice s 0 (2 * cs.length + 2) 0 cs
  return r

/-- The expression that matches a text alone. -/
def literal (cs : List Char) : Regex :=
  cs.foldr (fun c r => .followed (.one (.exactly c)) r) .nothing

/-- The number of groups of an expression. -/
def groupCount : Regex → Nat
  | .followed a b => max a.groupCount b.groupCount
  | .either _ a b => max a.groupCount b.groupCount
  | .repeated _ a _ _ => a.groupCount
  | .group n a => max n a.groupCount
  | .ahead _ a => a.groupCount
  | .before _ a => a.groupCount
  | _ => 0

/-- The expression whose starts and ends are those of lines and not of the text. -/
def byLines : Regex → Regex
  | .edge .textStart => .edge .lineStart
  | .edge .textEnd => .edge .lineEnd
  | .followed a b => .followed a.byLines b.byLines
  | .either ordered a b => .either ordered a.byLines b.byLines
  | .repeated lazy a least most => .repeated lazy a.byLines least most
  | .group n a => .group n a.byLines
  | .ahead negated a => .ahead negated a.byLines
  | .before negated a => .before negated a.byLines
  | r => r

/-! ### Matching -/

/-- Where groups have matched: the number of a group, and the first and the end of its
characters. -/
abbrev Groups := List (Nat × Nat × Nat)

/-- A match: its end and its groups. -/
abbrev Found := Nat × Groups

/-- The match that ends later, of two that end at the same place the first. -/
def farther (x y : Option Found) : Option Found :=
  match x, y with
  | some f, some g => some (if f.1 < g.1 then g else f)
  | some f, none => some f
  | none, y => y

/-- A character of words stands at a position. -/
def wordAt (text : Array Char) (pos : Nat) : Bool :=
  (text[pos]?).any (CharSet.ranges wordRanges false).holds

/-- The place is at a position of a text. -/
def Edge.isAt (text : Array Char) (pos : Nat) (e : Edge) : Bool :=
  let behind := pos ≠ 0 && wordAt text (pos - 1)
  let ahead := wordAt text pos
  match e with
  | .textStart => pos = 0
  | .textEnd => pos = text.size
  | .lineStart => pos = 0 || text[pos - 1]? = some '\n'
  | .lineEnd => pos = text.size || text[pos]? = some '\n'
  | .wordStart => !behind && ahead
  | .wordEnd => behind && !ahead
  | .word => behind != ahead
  | .noWord => behind == ahead

/-- The characters from one position to another. -/
def between (text : Array Char) (start stop : Nat) : List Char :=
  (text.extract start stop).toList

/-- Matches an expression at a position of a text and goes on with `next`; repetitions that match
nothing end. -/
def matchAt (text : Array Char) : Nat → Regex → Nat → Groups → (Nat → Groups → Option Found) →
    Option Found
  | 0, _, _, _, _ => none
  | fuel + 1, r, pos, groups, next =>
    match r with
    | .nothing => next pos groups
    | .one s => if (text[pos]?).any s.holds then next (pos + 1) groups else none
    | .followed a b => matchAt text fuel a pos groups fun p g => matchAt text fuel b p g next
    | .either true a b =>
      (matchAt text fuel a pos groups next).or (matchAt text fuel b pos groups next)
    | .either false a b =>
      farther (matchAt text fuel a pos groups next) (matchAt text fuel b pos groups next)
    | .repeated lazy a least most =>
      let again := fun (_ : Unit) => if most = some 0 then none
        else matchAt text fuel a pos groups fun p g =>
          if p = pos then none
          else matchAt text fuel (.repeated lazy a (least - 1) (most.map (· - 1))) p g next
      let stop := fun (_ : Unit) => if least = 0 then next pos groups else none
      let empty := fun (_ : Unit) => if least = 0 then none
        else matchAt text fuel a pos groups fun p g => if p = pos then next p g else none
      if lazy then ((stop ()).or (again ())).or (empty ())
        else ((again ()).or (stop ())).or (empty ())
    | .group n a => matchAt text fuel a pos groups fun p g => next p ((n, pos, p) :: g)
    | .same n =>
      match groups.lookup n with
      | none => none
      | some (start, stop) =>
        let piece := between text start stop
        if between text pos (pos + piece.length) = piece then next (pos + piece.length) groups
          else none
    | .edge e => if e.isAt text pos then next pos groups else none
    | .ahead negated a =>
      let found := (matchAt text fuel a pos groups fun p g => some (p, g)).isSome
      if found != negated then next pos groups else none
    | .before negated a =>
      let found := (List.range (pos + 1)).any fun start =>
        (matchAt text fuel a start groups fun p g => if p = pos then some (p, g) else none).isSome
      if found != negated then next pos groups else none

/-- The nodes of an expression. -/
def size : Regex → Nat
  | .followed a b => a.size + b.size + 1
  | .either _ a b => a.size + b.size + 1
  | .repeated _ a _ _ => a.size + 1
  | .group _ a => a.size + 1
  | .ahead _ a => a.size + 1
  | .before _ a => a.size + 1
  | _ => 1

/-- The match at a position. -/
def matchFrom? (r : Regex) (text : Array Char) (pos : Nat) : Option Found :=
  matchAt text ((r.size + 2) * (text.size + 2)) r pos [] fun p g => some (p, g)

/-- **The first match from a position on:** its start, its end and its groups. -/
def find? (r : Regex) (text : Array Char) (start : Nat) : Option (Nat × Nat × Groups) :=
  (List.range' start (text.size + 1 - start)).findSome? fun pos =>
    (r.matchFrom? text pos).map fun (stop, groups) => (pos, stop, groups)

/-- The expression matches in a text. -/
def isIn (r : Regex) (text : Array Char) : Bool := (r.find? text 0).isSome

/-- The matches without those that are empty and stand where another one has ended. -/
def apart : Option Nat → List (Nat × Nat × Groups) → List (Nat × Nat × Groups)
  | _, [] => []
  | last, (start, stop, groups) :: rest =>
    if start = stop && last = some start then apart last rest
    else (start, stop, groups) :: apart (some stop) rest

/-- The starts and ends of all matches from a position on, at most `limit` of them. -/
def findAll (r : Regex) (text : Array Char) : Nat → Nat → List (Nat × Nat × Groups)
  | 0, _ => []
  | limit + 1, start =>
    match r.find? text start with
    | none => []
    | some (pos, stop, groups) =>
      (pos, stop, groups) :: findAll r text limit (if stop = pos then pos + 1 else stop)

/-- The places in a text that are replaced where all matches are. -/
def occurrences (r : Regex) (text : Array Char) : List (Nat × Nat × Groups) :=
  apart none (r.findAll text (2 * text.size + 1) 0)

end Regex

end Arbor.Shell
