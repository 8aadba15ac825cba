/-!
# Places in a YAML text

Layout decides what a YAML text means, so a place in it knows its line and its column. A line ends
with a carriage return, a line feed, both in this order, or one of the characters U+0085, U+2028 and
U+2029; inside of scalars all but the last two read as a line feed.
-/

namespace BlockEdit.Yaml

/-- A place in a text: what follows, and how many characters, lines and characters of the line are
in front. -/
structure Cursor where
  rest : List Char
  index : Nat
  line : Nat
  column : Nat

/-- The characters that a text may hold: no controls but tabs and line ends. -/
def isAllowed (c : Char) : Bool :=
  let n := c.toNat
  n == 0x9 || n == 0xa || n == 0xd || (0x20 ≤ n && n ≤ 0x7e) || n == 0x85 ||
    (0xa0 ≤ n && n ≤ 0xd7ff) || (0xe000 ≤ n && n ≤ 0xfffd) || 0x10000 ≤ n

/-- A space or a tab. -/
def isBlank (c : Char) : Bool := c == ' ' || c == '\t'

/-- A character that ends a line. -/
def isBreak (c : Char) : Bool :=
  c == '\n' || c == '\r' || c == '\x85' || c == '\u2028' || c == '\u2029'

/-- A character of the names of anchors and directives. -/
def isNameChar (c : Char) : Bool := c.isAlphanum || c == '-' || c == '_'

/-- A character that opens or closes a flow collection. -/
def isBracket (c : Char) : Bool := c == '[' || c == ']' || c == '\x7b' || c == '\x7d'

/-- The text is at its end, or begins with a blank or a line end. -/
def startsBlank : List Char → Bool
  | [] => true
  | c :: _ => isBlank c || isBreak c

/-- The text is at its end, or begins with a line end. -/
def startsBreak : List Char → Bool
  | [] => true
  | c :: _ => isBreak c

namespace Cursor

/-- The start of a text. -/
def start (cs : List Char) : Cursor := ⟨cs, 0, 0, 0⟩

/-- The place behind one character. -/
def next (p : Cursor) : Cursor := ⟨p.rest.drop 1, p.index + 1, p.line, p.column + 1⟩

/-- The place behind `n` characters of the same line. -/
def skip (p : Cursor) (n : Nat) : Cursor := ⟨p.rest.drop n, p.index + n, p.line, p.column + n⟩

/-- The place behind all characters of a kind. -/
def skipWhile (p : Cursor) (kind : Char → Bool) : Cursor :=
  p.skip (p.rest.takeWhile kind).length

/-- The place behind the line end that follows, and what it reads as. -/
def nextLine (p : Cursor) : List Char × Cursor :=
  match p.rest with
  | '\r' :: '\n' :: cs => (['\n'], ⟨cs, p.index + 2, p.line + 1, 0⟩)
  | c :: cs =>
    let read := if c == '\u2028' || c == '\u2029' then [c] else ['\n']
    (read, ⟨cs, p.index + 1, p.line + 1, 0⟩)
  | [] => ([], p)

/-- A line that marks the start or the end of a document begins here. -/
def isDocumentMark (p : Cursor) : Bool :=
  p.column == 0 &&
    match p.rest with
    | '-' :: '-' :: '-' :: cs => startsBlank cs
    | '.' :: '.' :: '.' :: cs => startsBlank cs
    | _ => false

/-- The place behind a comment, if one begins here. -/
def skipComment (p : Cursor) : Cursor :=
  match p.rest with
  | '#' :: _ => p.skipWhile (!isBreak ·)
  | _ => p

end Cursor

end BlockEdit.Yaml
