import BlockEdit.Yaml.Scalar

/-!
# Tokens of YAML

A YAML text is cut into tokens, among which the beginning and the end of each indented collection
have tokens of their own. A collection begins where the text stands further to the right than the
collections around it, and ends where it stands further to the left.

Whether a scalar is a key is known only at the colon behind it. So a place at which a key may begin
is remembered (`KeyPlace`), and the tokens that make it one are put in there later. A key without a
question mark stays on one line and is at most 1024 characters long.
-/

namespace BlockEdit.Yaml

/-- A token of a YAML text. -/
inductive Token where
  | documentStart
  | documentEnd
  /-- The version of a `%YAML` line. -/
  | version (major minor : Nat)
  /-- What a handle stands for by a `%TAG` line. -/
  | tagLine (handle stem : String)
  | blockSequence
  | blockMapping
  | blockEnd
  | flowSequence
  | flowSequenceEnd
  | flowMapping
  | flowMappingEnd
  | blockEntry
  | flowEntry
  | key
  | value
  | alias (name : String)
  | anchor (name : String)
  | tag (handle rest : String)
  | scalar (plain : Bool) (text : String)
  deriving DecidableEq, Repr

/-- A place at which a key without a question mark may begin: how many tokens are in front of it,
and whether it must be a key, because it stands where the entries of a mapping begin. -/
structure KeyPlace where
  required : Bool
  number : Nat
  place : Cursor

/-- A text that is being cut into tokens. -/
structure Scan where
  place : Cursor
  tokens : Array Token
  /-- How many flow collections are open. -/
  flowDepth : Nat
  /-- The column of the innermost indented collection, `-1` outside of all. -/
  indent : Int
  /-- The columns of the collections around it. -/
  indents : List Int
  /-- A key without a question mark may begin here. -/
  keyAllowed : Bool
  /-- The place of a possible key in each open flow collection, innermost first, and outside. -/
  keys : List (Option KeyPlace)

namespace Scan

/-- The longest key without a question mark. -/
def keyLimit : Nat := 1024

/-- A text of which nothing is read. -/
def start (cs : List Char) : Scan := ⟨.start cs, #[], 0, -1, [], true, [none]⟩

/-- One more token, behind which the text goes on at `place`. -/
def push (s : Scan) (t : Token) (place : Cursor) : Scan :=
  { s with tokens := s.tokens.push t, place := place }

/-- The place of the innermost possible key is forgotten; a required one is missing its colon. -/
def dropKey? (s : Scan) : Option Scan :=
  match s.keys with
  | some k :: ks => if k.required then none else some { s with keys := none :: ks }
  | _ => some s

/-- If a key may begin here, its place is remembered. -/
def saveKey? (s : Scan) : Option Scan :=
  if s.keyAllowed then do
    let s ← s.dropKey?
    let required := s.flowDepth = 0 && s.indent = s.place.column
    return { s with keys := some ⟨required, s.tokens.size, s.place⟩ :: s.keys.drop 1 }
  else some s

/-- The places of keys that became too long are forgotten. -/
def dropStale? (s : Scan) : Option Scan := do
  let keys ← s.keys.mapM fun key =>
    match key with
    | some k =>
      if k.place.line < s.place.line || k.place.index + keyLimit < s.place.index then
        if k.required then none else some none
      else some (some k)
    | none => some none
  return { s with keys := keys }

/-- An indented collection begins at `column`, unless one does already; its token is put in front of
the token with the given number. -/
def openAt (s : Scan) (column : Nat) (number : Nat) (t : Token) : Scan :=
  if s.flowDepth = 0 ∧ s.indent < column then
    { s with indents := s.indent :: s.indents, indent := column,
             tokens := s.tokens.insertIdxIfInBounds number t }
  else s

/-- The columns of the collections that are left when all further to the right than `column` end,
the innermost first, and how many end. -/
def leave (column : Int) : (indent : Int) → (indents : List Int) → Int × List Int × Nat
  | indent, [] => (indent, [], 0)
  | indent, outer :: indents =>
    if column < indent then
      let (indent, indents, n) := leave column outer indents
      (indent, indents, n + 1)
    else (indent, outer :: indents, 0)

/-- The indented collections further to the right than `column` end. -/
def closeTo (s : Scan) (column : Int) : Scan :=
  if s.flowDepth = 0 then
    let (indent, indents, n) := leave column s.indent s.indents
    { s with indent := indent, indents := indents,
             tokens := s.tokens ++ Array.replicate n .blockEnd }
  else s

/-- The place of the next token, and whether a key may begin there. Blanks and comments are passed
over; a tab in front of the first token of a line is no blank where a key may begin. -/
def skipToToken (inFlow : Bool) : (fuel : Nat) → (keyAllowed : Bool) → Cursor → Bool × Cursor
  | 0, keyAllowed, p => (keyAllowed, p)
  | fuel + 1, keyAllowed, p =>
    let p :=
      match p.column, p.rest with
      | 0, '\ufeff' :: _ => p.next
      | _, _ => p
    let p := p.skipWhile fun c => c == ' ' || ((inFlow || !keyAllowed) && c == '\t')
    let p := p.skipComment
    match p.rest with
    | c :: _ =>
      if isBreak c then skipToToken inFlow fuel (keyAllowed || !inFlow) p.nextLine.2
      else (keyAllowed, p)
    | [] => (keyAllowed, p)

/-! ## Directives, anchors and tags -/

/-- The place behind the rest of a directive, in which only blanks and a comment may stand. -/
def directiveEnd? (p : Cursor) : Option Cursor :=
  let p := (p.skipWhile isBlank).skipComment
  if startsBreak p.rest then some (if p.rest.isEmpty then p else p.nextLine.2) else none

/-- A number of at most nine digits. -/
def versionNumber? (p : Cursor) : Option (Nat × Cursor) :=
  let digits := p.rest.takeWhile Char.isDigit
  if digits.isEmpty || 9 < digits.length then none
  else some (digits.foldl (fun n c => n * 10 + (c.toNat - '0'.toNat)) 0, p.skip digits.length)

/-- The handle of a tag. In a directive it is one or two exclamation marks with a name between
them. -/
def tagHandle? (inDirective : Bool) (p : Cursor) : Option (List Char × Cursor) :=
  match p.rest with
  | '!' :: cs =>
    let name := cs.takeWhile isNameChar
    let q := p.skip (name.length + 1)
    match q.rest with
    | '!' :: _ => some ('!' :: name ++ ['!'], q.next)
    | _ => if inDirective && !name.isEmpty then none else some ('!' :: name, q)
  | _ => none

/-- A character of a tag. -/
def isTagChar (bracketed : Bool) (c : Char) : Bool :=
  isNameChar c || [';', '/', '?', ':', '@', '&', '=', '+', '$', '.', '!', '~', '*', '\x27', '(',
    ')'].contains c || (bracketed && [',', '[', ']'].contains c)

/-- A byte that is written as a percent sign and two hexadecimal digits. -/
def escapedByte? : List Char → Option UInt8
  | '%' :: a :: b :: _ => do return UInt8.ofNat ((← hexValue? a) * 16 + (← hexValue? b))
  | _ => none

/-- The number of bytes of a character that begins with the given byte. -/
def encodedSize (b : UInt8) : Nat :=
  if b < 0x80 then 1
  else if 0xc0 ≤ b && b < 0xe0 then 2
  else if 0xe0 ≤ b && b < 0xf0 then 3
  else if 0xf0 ≤ b && b < 0xf8 then 4
  else 0

/-- `n` escaped bytes. -/
def escapedBytes? : (n : Nat) → Cursor → Option (List UInt8 × Cursor)
  | 0, p => some ([], p)
  | n + 1, p => do
    let b ← escapedByte? p.rest
    let (bs, p) ← escapedBytes? n (p.skip 3)
    return (b :: bs, p)

/-- The characters of a tag; characters may be written as escaped bytes. -/
def tagText? (bracketed : Bool) : (fuel : Nat) → Cursor → Option (List Char × Cursor)
  | 0, _ => none
  | fuel + 1, p =>
    match p.rest with
    | '%' :: _ => do
      let size := encodedSize (← escapedByte? p.rest)
      if size = 0 then none
      else
        let (bytes, p) ← escapedBytes? size p
        let s ← String.fromUTF8? bytes.toByteArray
        let (more, p) ← tagText? bracketed fuel p
        return (s.toList ++ more, p)
    | c :: _ =>
      if isTagChar bracketed c then do
        let (more, p) ← tagText? bracketed fuel p.next
        return (c :: more, p)
      else some ([], p)
    | [] => some ([], p)

/-- The characters of a tag, of which there must be one unless some stand in front. -/
def tagRest? (bracketed : Bool) (front : List Char) (p : Cursor) : Option (List Char × Cursor) := do
  let (text, p) ← tagText? bracketed (p.rest.length + 1) p
  if front.isEmpty && text.isEmpty then none else return (front ++ text, p)

/-- A directive behind its percent sign. -/
def directive? (p : Cursor) : Option (Token × Cursor) := do
  let name := p.rest.takeWhile isNameChar
  let p := p.skip name.length
  if !startsBlank p.rest then none
  else if name = "YAML".toList then
    let (major, p) ← versionNumber? (p.skipWhile isBlank)
    match p.rest with
    | '.' :: _ =>
      let (minor, p) ← versionNumber? p.next
      return (.version major minor, ← directiveEnd? p)
    | _ => none
  else if name = "TAG".toList then
    let (handle, p) ← tagHandle? true (p.skipWhile isBlank)
    if p.rest.head?.any isBlank then
      let (stem, p) ← tagRest? true [] (p.skipWhile isBlank)
      if startsBlank p.rest then
        return (.tagLine (String.ofList handle) (String.ofList stem), ← directiveEnd? p)
      else none
    else none
  else none

/-- The name of an anchor or an alias, behind its mark. -/
def anchorName? (p : Cursor) : Option (String × Cursor) :=
  let name := p.rest.takeWhile isNameChar
  let q := p.skip name.length
  let ended :=
    match q.rest with
    | [] => true
    | c :: _ => isBlank c || isBreak c || ['?', ':', ',', ']', '\x7d', '%', '@', '\x60'].contains c
  if name.isEmpty || !ended then none else some (String.ofList name, q)

/-- A tag. -/
def tag? (inFlow : Bool) (p : Cursor) : Option (Token × Cursor) := do
  let (handle, rest, p) ←
    match p.rest with
    | '!' :: '<' :: _ => do
      let (rest, p) ← tagRest? true [] (p.skip 2)
      match p.rest with
      | '>' :: _ => some ([], rest, p.next)
      | _ => none
    | _ => do
      let (handle, p) ← tagHandle? false p
      if 2 ≤ handle.length && handle.getLast? = some '!' then do
        let (rest, p) ← tagRest? false [] p
        some (handle, rest, p)
      else do
        let (rest, p) ← tagText? false (p.rest.length + 1) p
        let rest := handle.drop 1 ++ rest
        some (if rest.isEmpty then ([], ['!'], p) else (['!'], rest, p))
  let ended := startsBlank p.rest || (inFlow && p.rest.head? = some ',')
  if ended then return (.tag (String.ofList handle) (String.ofList rest), p) else none

/-! ## The next token -/

/-- A mark of its own before which the collections of a document end. -/
def documentMark? (s : Scan) (t : Token) : Option Scan := do
  let s ← (s.closeTo (-1)).dropKey?
  return { s.push t (s.place.skip 3) with keyAllowed := false }

/-- A flow collection begins. -/
def flowStart? (s : Scan) (t : Token) : Option Scan := do
  let s ← s.saveKey?
  return { s.push t s.place.next with
    keyAllowed := true, flowDepth := s.flowDepth + 1, keys := none :: s.keys }

/-- A flow collection ends. -/
def flowEnd? (s : Scan) (t : Token) : Option Scan := do
  let s ← s.dropKey?
  let keys := if s.flowDepth = 0 then s.keys else s.keys.drop 1
  return { s.push t s.place.next with
    keyAllowed := false, flowDepth := s.flowDepth - 1, keys := keys }

/-- A comma between the members of a flow collection. -/
def flowEntry? (s : Scan) : Option Scan := do
  let s ← s.dropKey?
  return { s.push .flowEntry s.place.next with keyAllowed := true }

/-- An indented collection begins here, if one may. -/
def openHere? (s : Scan) (t : Token) : Option Scan :=
  if s.flowDepth = 0 then
    if s.keyAllowed then some (s.openAt s.place.column s.tokens.size t) else none
  else some s

/-- A dash in front of a member of a sequence. -/
def blockEntry? (s : Scan) : Option Scan := do
  let s ← (← s.openHere? .blockSequence).dropKey?
  return { s.push .blockEntry s.place.next with keyAllowed := true }

/-- A question mark in front of a key. -/
def key? (s : Scan) : Option Scan := do
  let s ← (← s.openHere? .blockMapping).dropKey?
  return { s.push .key s.place.next with keyAllowed := s.flowDepth = 0 }

/-- A colon in front of a value; if a key may have begun before it, that was a key. -/
def value? (s : Scan) : Option Scan :=
  match s.keys with
  | some k :: ks =>
    let s := { s with tokens := s.tokens.insertIdxIfInBounds k.number .key, keys := none :: ks }
    let s := s.openAt k.place.column k.number .blockMapping
    some { s.push .value s.place.next with keyAllowed := false }
  | _ => do
    let s ← s.openHere? .blockMapping
    return { s.push .value s.place.next with keyAllowed := s.flowDepth = 0 }

/-- A token that may begin a key. -/
def node? (s : Scan) (read : Cursor → Option (Token × Cursor)) : Option Scan := do
  let s ← s.saveKey?
  let (t, p) ← read s.place
  return { s.push t p with keyAllowed := false }

/-- A plain scalar. -/
def plain? (s : Scan) : Option Scan := do
  let s ← s.saveKey?
  let (text, hasLine, p) ← plainScalar (0 < s.flowDepth) (s.indent + 1).toNat s.place
  return { s.push (.scalar true (String.ofList text)) p with keyAllowed := hasLine }

/-- A scalar that is an indented block. -/
def block? (s : Scan) (folded : Bool) : Option Scan := do
  let s ← s.dropKey?
  let (text, p) ← blockScalar folded s.indent s.place.next
  return { s.push (.scalar false (String.ofList text)) p with keyAllowed := true }

/-- A scalar in quotes. -/
def quoted? (s : Scan) (single : Bool) : Option Scan :=
  s.node? fun p => do
    let (text, p) ← quotedScalar single p.next
    return (.scalar false (String.ofList text), p)

/-- A plain scalar may not begin with this character, whatever follows. -/
def isIndicator (c : Char) : Bool :=
  ['-', '?', ':', ',', '[', ']', '\x7b', '\x7d', '#', '&', '*', '!', '|', '>', '\x27', '"', '%',
    '@', '\x60'].contains c

/-- The token that begins with the character `c` at the place of the scan. -/
def token? (s : Scan) (c : Char) (cs : List Char) : Option Scan :=
  let inFlow : Bool := 0 < s.flowDepth
  let spaced := startsBlank cs
  if s.place.column = 0 ∧ c = '%' then do
    let s ← (s.closeTo (-1)).dropKey?
    let (t, p) ← directive? s.place.next
    return { s.push t p with keyAllowed := false }
  else if s.place.isDocumentMark then
    s.documentMark? (if c = '-' then .documentStart else .documentEnd)
  else if c = '[' then s.flowStart? .flowSequence
  else if c = '\x7b' then s.flowStart? .flowMapping
  else if c = ']' then s.flowEnd? .flowSequenceEnd
  else if c = '\x7d' then s.flowEnd? .flowMappingEnd
  else if c = ',' then s.flowEntry?
  else if c = '-' ∧ spaced then s.blockEntry?
  else if c = '?' ∧ (inFlow ∨ spaced) then s.key?
  else if c = ':' ∧ (inFlow ∨ spaced) then s.value?
  else if c = '*' then s.node? fun p => (anchorName? p.next).map fun (n, p) => (.alias n, p)
  else if c = '&' then s.node? fun p => (anchorName? p.next).map fun (n, p) => (.anchor n, p)
  else if c = '!' then s.node? (tag? inFlow)
  else if c = '|' ∧ !inFlow then s.block? false
  else if c = '>' ∧ !inFlow then s.block? true
  else if c = '\x27' then s.quoted? true
  else if c = '"' then s.quoted? false
  else if (!isIndicator c && !isBlank c) || c = '-' || (!inFlow && (c = '?' || c = ':')) then
    s.plain?
  else none

/-- The tokens of the rest of a text. -/
def run : (fuel : Nat) → Scan → Option (Array Token)
  | 0, _ => none
  | fuel + 1, s => do
    let (keyAllowed, place) :=
      skipToToken (0 < s.flowDepth) (s.place.rest.length + 1) s.keyAllowed s.place
    let s ← dropStale? { s with keyAllowed := keyAllowed, place := place }
    let s := s.closeTo s.place.column
    match s.place.rest with
    | [] =>
      let s ← (s.closeTo (-1)).dropKey?
      return s.tokens
    | c :: cs => run fuel (← s.token? c cs)

end Scan

/-- The tokens of a text without characters that may not stand in it. A byte order mark in front is
left out. -/
def tokens? (text : String) : Option (List Token) :=
  let cs := match text.toList with
    | '\ufeff' :: cs => cs
    | cs => cs
  if cs.all isAllowed then (Scan.run (cs.length + 1) (.start cs)).map Array.toList else none

end BlockEdit.Yaml
