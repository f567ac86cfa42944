import Arbor.Text.Blank

/-! # Tokens of the directive language

The text of a directive is a sequence of words, quoted strings and equals signs with blanks between
them. `tokenize` splits a text; `quote` writes a string in the form that `tokenize` reads back.

* A word starts with an ASCII letter or an underscore, goes on with letters, digits and underscores,
  and is taken in upper case.
* A string stands between double quotes and may span lines. The escapes are `\"`, `\\`, `\n` and
  `\t`; a backslash before any other character stands for itself.
* An error carries its place as a number of bytes from the start of the text. -/

namespace Arbor.Directive

open Arbor.Text

/-- One token. -/
inductive Token where
  /-- A bare word, in upper case. -/
  | word (text : String)
  /-- A quoted string, with its escapes decoded. -/
  | str (value : String)
  /-- The sign `=`. -/
  | equals
  deriving DecidableEq, Repr

/-- Why a text is not a sequence of tokens. -/
inductive LexError where
  /-- A character that starts no token. -/
  | unexpectedChar (c : Char) (offset : Nat)
  /-- A string without a closing quote; the offset is that of the opening one. -/
  | unterminated (offset : Nat)
  deriving DecidableEq, Repr

/-- The first character of a word. -/
def isWordStart (c : Char) : Bool := c.isAlpha || c == '_'

/-- A character inside a word. -/
def isWordChar (c : Char) : Bool := c.isAlphanum || c == '_'

/-- What a backslash before `c` stands for inside a string. -/
def unescape (c : Char) : List Char :=
  match c with
  | '"' => ['"']
  | '\\' => ['\\']
  | 'n' => ['\n']
  | 't' => ['\t']
  | c => ['\\', c]

/-- Reads a string up to its closing quote: the decoded value and the text behind the quote. -/
def readString : List Char → Option (List Char × List Char)
  | [] => none
  | '"' :: rest => some ([], rest)
  | '\\' :: [] => none
  | '\\' :: c :: rest => (readString rest).map fun p => (unescape c ++ p.1, p.2)
  | c :: rest => (readString rest).map fun p => (c :: p.1, p.2)

/-- The text behind a string is shorter than the text from its opening quote on. -/
theorem readString_length {cs : List Char} {p : List Char × List Char}
    (h : readString cs = some p) : p.2.length < cs.length := by
  fun_induction readString cs generalizing p with
  | case1 => simp at h
  | case2 rest => simp only [Option.some.injEq] at h; subst h; simp
  | case3 => simp at h
  | case4 c rest ih =>
    obtain ⟨q, hq, rfl⟩ := Option.map_eq_some_iff.1 h
    have := ih hq
    simp only [List.length_cons]
    omega
  | case5 c rest _ _ _ ih =>
    obtain ⟨q, hq, rfl⟩ := Option.map_eq_some_iff.1 h
    have := ih hq
    simp only [List.length_cons]
    omega

/-- The tokens of the rest `cs` of a text of `total` bytes. -/
def scan (total : Nat) (cs : List Char) : Except LexError (List Token) :=
  match cs with
  | [] => .ok []
  | c :: rest =>
    if isBlank c then scan total rest
    else if c = '=' then do return .equals :: (← scan total rest)
    else if c = '"' then
      match h : readString rest with
      | none => .error (.unterminated (total - byteCount (c :: rest)))
      | some p =>
        have : p.2.length < rest.length := readString_length h
        do return .str (String.ofList p.1) :: (← scan total p.2)
    else if isWordStart c then
      have : (rest.dropWhile isWordChar).length ≤ rest.length :=
        (List.dropWhile_suffix isWordChar).length_le
      do
        let word := c :: rest.takeWhile isWordChar
        return .word (String.ofList (upperChars word)) :: (← scan total (rest.dropWhile isWordChar))
    else .error (.unexpectedChar c (total - byteCount (c :: rest)))
  termination_by cs.length
  decreasing_by
    all_goals simp_wf
    all_goals omega

/-- **The tokens of a text.** -/
def tokenize (cs : List Char) : Except LexError (List Token) := scan (byteCount cs) cs

/-- A character as it is written inside a string. -/
def escape (c : Char) : List Char :=
  match c with
  | '"' => ['\\', '"']
  | '\\' => ['\\', '\\']
  | c => [c]

/-- The characters of a string between its quotes. -/
def quoteChars (cs : List Char) : List Char := '"' :: (cs.flatMap escape ++ ['"'])

/-- **The written form of a string.** -/
def quote (s : String) : String := String.ofList (quoteChars s.toList)

end Arbor.Directive
