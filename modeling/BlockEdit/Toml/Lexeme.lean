import BlockEdit.Text.Occurrence

/-!
# Lexemes of TOML

White space, line ends and comments, and the four forms of strings. Every reader takes what it
reads off the head of a text and gives the rest; it gives `none` where the text does not begin with
what it reads.

A string in single quotes is taken as it stands; in one in double quotes a backslash begins an
escape. Three quotes open a string of several lines: a line end right behind them is left out, a
carriage return in front of a line feed is left out, and one or two quotes may stand inside it or
right in front of its end.
-/

namespace BlockEdit.Toml

/-- A reader of values. -/
abbrev Reader (α : Type) := List Char → Option (α × List Char)

/-- White space within a line. -/
def isSpace (c : Char) : Bool := c == ' ' || c == '\t'

/-- The text behind white space within a line. -/
def skipSpace (cs : List Char) : List Char := cs.dropWhile isSpace

/-- A character that may stand in comments and strings: no control but the tab. -/
def isPlain (c : Char) : Bool := c == '\t' || (0x20 ≤ c.toNat && c.toNat != 0x7f)

/-- The text behind the line end at its head. -/
def newline? : List Char → Option (List Char)
  | '\n' :: cs => some cs
  | '\r' :: '\n' :: cs => some cs
  | _ => none

/-- The text behind a comment at its head, if there is one. -/
def skipComment : List Char → List Char
  | '#' :: cs => cs.dropWhile isPlain
  | cs => cs

/-- The text behind the rest of a line, in which only white space and a comment may stand. -/
def lineEnd? (cs : List Char) : Option (List Char) :=
  match skipComment (skipSpace cs) with
  | [] => some []
  | cs => newline? cs

/-- The text behind white space, comments and line ends; each comment must end its line. -/
def skipLines : (fuel : Nat) → List Char → Option (List Char)
  | 0, cs => some cs
  | fuel + 1, cs =>
    match skipSpace cs with
    | '#' :: cs =>
      match newline? (cs.dropWhile isPlain) with
      | some cs => skipLines fuel cs
      | none => none
    | cs =>
      match newline? cs with
      | some cs => skipLines fuel cs
      | none => some cs

/-- The text behind white space, comments and line ends. -/
def skipBlank (cs : List Char) : Option (List Char) := skipLines (cs.length + 1) cs

/-- The value of a hexadecimal digit. -/
def hexValue? (c : Char) : Option Nat :=
  if '0' ≤ c ∧ c ≤ '9' then some (c.toNat - '0'.toNat)
  else if 'a' ≤ c ∧ c ≤ 'f' then some (c.toNat - 'a'.toNat + 10)
  else if 'A' ≤ c ∧ c ≤ 'F' then some (c.toNat - 'A'.toNat + 10)
  else none

/-- The character whose number is written with exactly `n` hexadecimal digits. -/
def hexChar? (n : Nat) (cs : List Char) : Option (Char × List Char) := do
  let digits := cs.take n
  if digits.length = n then
    let value ← digits.foldlM (fun v c => do return v * 16 + (← hexValue? c)) 0
    if value < 0xd800 ∨ (0xdfff < value ∧ value < 0x110000) then
      return (Char.ofNat value, cs.drop n)
    else none
  else none

/-- The character that an escape stands for, behind its backslash. -/
def escape? : List Char → Option (Char × List Char)
  | 'b' :: cs => some ('\x08', cs)
  | 't' :: cs => some ('\t', cs)
  | 'n' :: cs => some ('\n', cs)
  | 'f' :: cs => some ('\x0c', cs)
  | 'r' :: cs => some ('\r', cs)
  | '"' :: cs => some ('"', cs)
  | '\\' :: cs => some ('\\', cs)
  | 'u' :: cs => hexChar? 4 cs
  | 'U' :: cs => hexChar? 8 cs
  | _ => none

/-- A string in double quotes behind the opening one. -/
def basic : (fuel : Nat) → Reader (List Char)
  | 0, _ => none
  | _ + 1, '"' :: cs => some ([], cs)
  | fuel + 1, '\\' :: cs => do
    let (c, cs) ← escape? cs
    let (s, rest) ← basic fuel cs
    return (c :: s, rest)
  | fuel + 1, c :: cs =>
    if isPlain c then do
      let (s, rest) ← basic fuel cs
      return (c :: s, rest)
    else none
  | _ + 1, [] => none

/-- A string in single quotes behind the opening one. -/
def literal : Reader (List Char)
  | [] => none
  | '\x27' :: cs => some ([], cs)
  | c :: cs =>
    if isPlain c then do
      let (s, rest) ← literal cs
      return (c :: s, rest)
    else none

/-- The closing quotes of a string of several lines at the head of a text, with those of them that
still belong to the string. -/
def closing? (quote : Char) (cs : List Char) : Option (List Char × List Char) :=
  let n := min 5 (cs.takeWhile (· == quote)).length
  if 3 ≤ n then some (List.replicate (n - 3) quote, cs.drop n) else none

/-- The text behind a backslash that ends its line: white space and line ends are left out up to
the next character. -/
def foldedLine? (cs : List Char) : Option (List Char) :=
  match newline? (skipSpace cs) with
  | some cs => some (cs.dropWhile fun c => isSpace c || c == '\n' || c == '\r')
  | none => none

/-- Each carriage return in the skipped text stands in front of a line feed. -/
def returnsPaired : List Char → Bool
  | '\r' :: '\n' :: cs => returnsPaired cs
  | '\r' :: _ => false
  | _ :: cs => returnsPaired cs
  | [] => true

/-- A string of several lines in double quotes behind the opening ones. -/
def basicLines : (fuel : Nat) → Reader (List Char)
  | 0, _ => none
  | _ + 1, [] => none
  | fuel + 1, '"' :: cs =>
    match closing? '"' ('"' :: cs) with
    | some done => some done
    | none => do
      let (s, rest) ← basicLines fuel cs
      return ('"' :: s, rest)
  | fuel + 1, '\\' :: cs =>
    match foldedLine? cs with
    | some rest =>
      if returnsPaired (cs.take (cs.length - rest.length)) then basicLines fuel rest else none
    | none => do
      let (c, cs) ← escape? cs
      let (s, rest) ← basicLines fuel cs
      return (c :: s, rest)
  | fuel + 1, c :: cs =>
    match newline? (c :: cs) with
    | some cs => do
      let (s, rest) ← basicLines fuel cs
      return ('\n' :: s, rest)
    | none =>
      if isPlain c then do
        let (s, rest) ← basicLines fuel cs
        return (c :: s, rest)
      else none

/-- A string of several lines in single quotes behind the opening ones. -/
def literalLines : (fuel : Nat) → Reader (List Char)
  | 0, _ => none
  | _ + 1, [] => none
  | fuel + 1, '\x27' :: cs =>
    match closing? '\x27' ('\x27' :: cs) with
    | some done => some done
    | none => do
      let (s, rest) ← literalLines fuel cs
      return ('\x27' :: s, rest)
  | fuel + 1, c :: cs =>
    match newline? (c :: cs) with
    | some cs => do
      let (s, rest) ← literalLines fuel cs
      return ('\n' :: s, rest)
    | none =>
      if isPlain c then do
        let (s, rest) ← literalLines fuel cs
        return (c :: s, rest)
      else none

/-- A text without a line end at its head. -/
def dropNewline (cs : List Char) : List Char := (newline? cs).getD cs

/-- A string in any of its forms. -/
def string? : Reader String := fun cs =>
  let read : Option (List Char × List Char) :=
    match cs with
    | '"' :: '"' :: '"' :: cs => basicLines (cs.length + 1) (dropNewline cs)
    | '"' :: cs => basic (cs.length + 1) cs
    | '\x27' :: '\x27' :: '\x27' :: cs => literalLines (cs.length + 1) (dropNewline cs)
    | '\x27' :: cs => literal cs
    | _ => none
  read.map fun (s, rest) => (String.ofList s, rest)

/-- A character of a key without quotes. -/
def isBareKey (c : Char) : Bool :=
  c.isAlphanum || c == '-' || c == '_'

/-- One part of a key: a bare word, or a string on one line. -/
def keyPart? : Reader String := fun cs =>
  match cs with
  | '"' :: rest => (basic (rest.length + 1) rest).map fun (s, rest) => (String.ofList s, rest)
  | '\x27' :: rest => (literal rest).map fun (s, rest) => (String.ofList s, rest)
  | cs =>
    match cs.takeWhile isBareKey with
    | [] => none
    | word => some (String.ofList word, cs.dropWhile isBareKey)

/-- The parts of a key between dots, with white space around them. -/
def keyParts? : (fuel : Nat) → Reader (List String)
  | 0, _ => none
  | fuel + 1, cs => do
    let (part, rest) ← keyPart? (skipSpace cs)
    match skipSpace rest with
    | '.' :: rest =>
      let (parts, rest) ← keyParts? fuel rest
      return (part :: parts, rest)
    | rest => return ([part], rest)

/-- How many parts a key may have, and how many lists and tables may stand inside one another. -/
def depthLimit : Nat := 79

/-- A key. -/
def key? : Reader (List String) := fun cs => do
  let (parts, rest) ← keyParts? (cs.length + 1) cs
  if parts.length ≤ depthLimit then return (parts, rest) else none

end BlockEdit.Toml
