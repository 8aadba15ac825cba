import BlockEdit.Yaml.Cursor

/-!
# Scalars of YAML

A scalar is written plainly, in single or double quotes, or as an indented block. Line ends inside
of it are folded: a single one reads as a space, and of several the first is left out. A block that
opens with a bar keeps its line ends instead.

Each reader gives the text of a scalar and the place behind it, or `none` where the text is no
scalar of its form.
-/

namespace BlockEdit.Yaml

/-- White space between two words of a scalar: blanks on one line, or line ends of which the first
is kept apart. -/
inductive Gap where
  | blanks (chars : List Char)
  | lines (first : List Char) (others : List Char)

namespace Gap

/-- No white space. -/
def empty : Gap := .blanks []

/-- What white space reads as. -/
def fold : Gap → List Char
  | .blanks chars => chars
  | .lines first others =>
    if first = ['\n'] then (if others = [] then [' '] else others) else first ++ others

/-- The white space holds a line end. -/
def hasLine : Gap → Bool
  | .lines .. => true
  | .blanks _ => false

end Gap

/-- The white space that follows, joined to a gap. Where a line must be indented to column
`indent`, no tab may stand in front of that column. -/
def readGap (indent : Nat) : (fuel : Nat) → Gap → Cursor → Option (Gap × Cursor)
  | 0, _, _ => none
  | fuel + 1, gap, p =>
    match p.rest with
    | [] => some (gap, p)
    | c :: _ =>
      if isBlank c then
        match gap with
        | .blanks chars => readGap indent fuel (.blanks (chars ++ [c])) p.next
        | .lines .. =>
          if c == '\t' && p.column < indent then none else readGap indent fuel gap p.next
      else if isBreak c then
        let (read, p) := p.nextLine
        match gap with
        | .blanks _ => readGap indent fuel (.lines read []) p
        | .lines first others => readGap indent fuel (.lines first (others ++ read)) p
      else some (gap, p)

/-! ## Plain scalars -/

/-- The characters of a plain word, and the place behind it; in a flow collection it ends in front
of its marks, and a colon may not stand in front of one. -/
def plainWord (inFlow : Bool) : (fuel : Nat) → Cursor → Option (List Char × Cursor)
  | 0, _ => none
  | fuel + 1, p =>
    match p.rest with
    | [] => some ([], p)
    | c :: cs =>
      if isBlank c || isBreak c then some ([], p)
      else
        let bad := inFlow && c == ':' &&
          match cs with
          | d :: _ => d == ',' || d == '?' || isBracket d
          | [] => false
        if bad then none
        else if (c == ':' && startsBlank cs) || (inFlow && (c == ',' || isBracket c)) then
          some ([], p)
        else do
          let (word, p) ← plainWord inFlow fuel p.next
          return (c :: word, p)

/-- The rest of a plain scalar, behind a gap: its text, whether a line end stands behind it, and
the place there. -/
def plainRest (inFlow : Bool) (indent : Nat) :
    (fuel : Nat) → Gap → Cursor → Option (List Char × Bool × Cursor)
  | 0, _, _ => none
  | fuel + 1, gap, p =>
    if p.isDocumentMark || p.rest.head? == some '#' then some ([], gap.hasLine, p)
    else do
      let (word, after) ← plainWord inFlow (p.rest.length + 1) p
      if word = [] then return ([], gap.hasLine, after)
      else if startsBlank after.rest && after.rest ≠ [] then
        let (next, q) ← readGap indent (after.rest.length + 1) .empty after
        if !inFlow && q.column < indent then return (gap.fold ++ word, next.hasLine, q)
        else
          let (more, hasLine, q) ← plainRest inFlow indent fuel next q
          return (gap.fold ++ word ++ more, hasLine, q)
      else return (gap.fold ++ word, false, after)

/-- A plain scalar, whose lines behind the first are indented to column `indent`. -/
def plainScalar (inFlow : Bool) (indent : Nat) (p : Cursor) :
    Option (List Char × Bool × Cursor) :=
  plainRest inFlow indent (p.rest.length + 1) .empty p

/-! ## Quoted scalars -/

/-- The value of a hexadecimal digit. -/
def hexValue? (c : Char) : Option Nat :=
  if '0' ≤ c ∧ c ≤ '9' then some (c.toNat - '0'.toNat)
  else if 'a' ≤ c ∧ c ≤ 'f' then some (c.toNat - 'a'.toNat + 10)
  else if 'A' ≤ c ∧ c ≤ 'F' then some (c.toNat - 'A'.toNat + 10)
  else none

/-- The character whose number is written with `n` hexadecimal digits. -/
def hexChar? (n : Nat) (cs : List Char) : Option Char := do
  let digits := cs.take n
  if digits.length = n then
    let value ← digits.foldlM (fun v c => do return v * 16 + (← hexValue? c)) 0
    if value < 0xd800 ∨ (0xdfff < value ∧ value < 0x110000) then return Char.ofNat value else none
  else none

/-- The character that an escape stands for, behind its backslash, and how long the escape is. -/
def escape? : List Char → Option (Char × Nat)
  | '0' :: _ => some ('\x00', 1)
  | 'a' :: _ => some ('\x07', 1)
  | 'b' :: _ => some ('\x08', 1)
  | 't' :: _ => some ('\t', 1)
  | '\t' :: _ => some ('\t', 1)
  | 'n' :: _ => some ('\n', 1)
  | 'v' :: _ => some ('\x0b', 1)
  | 'f' :: _ => some ('\x0c', 1)
  | 'r' :: _ => some ('\r', 1)
  | 'e' :: _ => some ('\x1b', 1)
  | ' ' :: _ => some (' ', 1)
  | '"' :: _ => some ('"', 1)
  | '/' :: _ => some ('/', 1)
  | '\\' :: _ => some ('\\', 1)
  | 'N' :: _ => some ('\x85', 1)
  | '_' :: _ => some ('\xa0', 1)
  | 'L' :: _ => some ('\u2028', 1)
  | 'P' :: _ => some ('\u2029', 1)
  | 'x' :: cs => (hexChar? 2 cs).map fun c => (c, 3)
  | 'u' :: cs => (hexChar? 4 cs).map fun c => (c, 5)
  | 'U' :: cs => (hexChar? 8 cs).map fun c => (c, 9)
  | _ => none

/-- How a word in quotes ends. -/
inductive WordEnd where
  /-- At the closing quote. -/
  | quote
  /-- At white space, or at the end of the text. -/
  | gap
  /-- Behind an escaped line end. -/
  | escapedLine

/-- The characters of a word in quotes, how it ends, and the place there. -/
def quotedWord (single : Bool) : (fuel : Nat) → Cursor → Option (List Char × WordEnd × Cursor)
  | 0, _ => none
  | fuel + 1, p =>
    match p.rest with
    | [] => some ([], .gap, p)
    | c :: cs =>
      if isBlank c || isBreak c then some ([], .gap, p)
      else if single then
        if c == '\x27' then
          match cs with
          | '\x27' :: _ => do
            let (word, e, p) ← quotedWord single fuel (p.skip 2)
            return ('\x27' :: word, e, p)
          | _ => some ([], .quote, p)
        else do
          let (word, e, p) ← quotedWord single fuel p.next
          return (c :: word, e, p)
      else if c == '"' then some ([], .quote, p)
      else if c == '\\' then
        match cs with
        | d :: _ =>
          if isBreak d then some ([], .escapedLine, p.next.nextLine.2)
          else do
            let (read, size) ← escape? cs
            let (word, e, p) ← quotedWord single fuel (p.skip (size + 1))
            return (read :: word, e, p)
        | [] => none
      else do
        let (word, e, p) ← quotedWord single fuel p.next
        return (c :: word, e, p)

/-- The rest of a scalar in quotes. -/
def quotedRest (single : Bool) : (fuel : Nat) → Cursor → Option (List Char × Cursor)
  | 0, _ => none
  | fuel + 1, p =>
    if p.isDocumentMark || p.rest.isEmpty then none
    else do
      let (word, e, p) ← quotedWord single (p.rest.length + 1) p
      match e with
      | .quote => return (word, p.next)
      | .gap =>
        let (gap, p) ← readGap 0 (p.rest.length + 1) .empty p
        let (more, p) ← quotedRest single fuel p
        return (word ++ gap.fold ++ more, p)
      | .escapedLine =>
        let (gap, p) ← readGap 0 (p.rest.length + 1) (.lines [] []) p
        let (more, p) ← quotedRest single fuel p
        return (word ++ gap.fold ++ more, p)

/-- A scalar in quotes, behind the opening one. -/
def quotedScalar (single : Bool) (p : Cursor) : Option (List Char × Cursor) :=
  quotedRest single (p.rest.length + 1) p

/-! ## Block scalars -/

/-- Which line ends are kept behind a block: the last one, none, or all. -/
inductive Chomping where
  | clip
  | strip
  | keep
  deriving DecidableEq

/-- A sign that says which line ends to keep. -/
def chomping? (c : Char) : Option Chomping :=
  if c == '+' then some .keep else if c == '-' then some .strip else none

/-- A digit that gives the indentation of a block. -/
def indentDigit? (c : Char) : Option Nat :=
  if '1' ≤ c ∧ c ≤ '9' then some (c.toNat - '0'.toNat) else none

/-- The signs behind the character that opens a block, in either order. -/
def blockSigns (p : Cursor) : Chomping × Nat × Cursor :=
  match p.rest with
  | c :: cs =>
    match chomping? c, indentDigit? c with
    | some chomping, _ =>
      match cs.head?.bind indentDigit? with
      | some n => (chomping, n, p.skip 2)
      | none => (chomping, 0, p.next)
    | none, some n =>
      match cs.head?.bind chomping? with
      | some chomping => (chomping, n, p.skip 2)
      | none => (.clip, n, p.next)
    | none, none => (.clip, 0, p)
  | [] => (.clip, 0, p)

/-- The empty lines that follow, the largest column on them, and the place in front of a line that
is not empty; `indent` is the indentation of the block, if it is known, and then no tab may stand in
front of that column. -/
def emptyLines (indent : Nat) : (fuel widest : Nat) → Cursor → Option (List Char × Nat × Cursor)
  | 0, _, _ => none
  | fuel + 1, widest, p =>
    let spaces := (p.rest.takeWhile (· == ' ')).length
    let p := p.skip (if indent = 0 then spaces else min spaces (indent - p.column))
    let widest := max widest p.column
    match p.rest with
    | c :: _ =>
      if c == '\t' && (indent = 0 || p.column < indent) then none
      else if isBreak c then do
        let (read, p) := p.nextLine
        let (more, widest, p) ← emptyLines indent fuel widest p
        return (read ++ more, widest, p)
      else some ([], widest, p)
    | [] => some ([], widest, p)

/-- The lines of a block that is indented to column `indent`: its text without the line ends behind
it, the last line end, the empty lines behind that, and the place there. `first` and `empty` are the
line end and the empty lines in front, and `spaced` says that the line in front began with a
blank. -/
def blockLines (folded : Bool) (indent : Nat) :
    (fuel : Nat) → (first empty : List Char) → (spaced : Bool) → Cursor →
      Option (List Char × List Char × List Char × Cursor)
  | 0, _, _, _, _ => none
  | fuel + 1, first, empty, spaced, p =>
    if p.column = indent && !p.rest.isEmpty then do
      let blank := p.rest.head?.any isBlank
      let joint :=
        if folded && first = ['\n'] && !spaced && !blank then
          if empty = [] then [' '] else empty
        else first ++ empty
      let line := p.rest.takeWhile (!isBreak ·)
      let (first, q) := (p.skip line.length).nextLine
      let (empty, _, q) ← emptyLines indent (q.rest.length + 1) 0 q
      let (text, last, trailing, q) ← blockLines folded indent fuel first empty blank q
      return (joint ++ line ++ text, last, trailing, q)
    else some ([], first, empty, p)

/-- A block scalar behind the character that opens it, inside of a collection that is indented to
`parent`, or of none below zero. -/
def blockScalar (folded : Bool) (parent : Int) (p : Cursor) : Option (List Char × Cursor) := do
  let (chomping, digit, p) := blockSigns p
  let p := (p.skipWhile isBlank).skipComment
  if startsBreak p.rest then
    let p := if p.rest.isEmpty then p else p.nextLine.2
    let given := if digit = 0 then 0 else (max parent 0).toNat + digit
    let (empty, widest, p) ← emptyLines given (p.rest.length + 1) 0 p
    let indent := if given = 0 then max widest (max (parent + 1) 1).toNat else given
    let (text, last, trailing, p) ←
      blockLines folded indent (p.rest.length + 1) [] empty false p
    let tail :=
      match chomping with
      | .strip => []
      | .clip => last
      | .keep => last ++ trailing
    return (text ++ tail, p)
  else none

end BlockEdit.Yaml
