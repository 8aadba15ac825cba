import BlockEdit.Config.Number
import BlockEdit.Config.Value
import BlockEdit.Yaml.Node

/-!
# YAML nodes as configuration values

What a plain scalar says follows from its form: nothing, a truth value, a number or a text. A scalar
in quotes or a block is a text. The tags of the core schema ask for one of these; any other tag with
an exclamation mark says something that no configuration value can.

Aliases are followed, at most a hundred times as often as the document has parts (`followLimit`),
and collections may nest to `depthLimit`. Reading counts in a state how many aliases may still be
followed.
-/

namespace BlockEdit.Yaml

/-- How many collections may stand inside one another. -/
def depthLimit : Nat := 128

/-! ## Plain scalars -/

/-- The forms of nothing, beside the empty scalar. -/
def isNull (s : String) : Bool := ["null", "Null", "NULL", "~"].contains s

/-- The truth value that a scalar is. -/
def bool? (s : String) : Option Bool :=
  if ["true", "True", "TRUE"].contains s then some true
  else if ["false", "False", "FALSE"].contains s then some false
  else none

/-- A sign stands in front. -/
def isSigned : List Char → Bool
  | '+' :: _ => true
  | '-' :: _ => true
  | _ => false

/-- A scalar without its sign. -/
def unsigned (cs : List Char) : List Char := if isSigned cs then cs.drop 1 else cs

/-- Digits with a leading zero, which are a text. -/
def isZeroPadded (cs : List Char) : Bool :=
  match unsigned cs with
  | '0' :: c :: rest => (c :: rest).all Char.isDigit
  | _ => false

/-- The number that digits of a base stand for. -/
def digitsIn? (base : Nat) (cs : List Char) : Option Nat :=
  if cs.isEmpty then none
  else cs.foldlM (fun n c => do
    let d ← hexValue? c
    if d < base then return n * base + d else none) 0

/-- The base that the mark in front of an integer names, and its digits. -/
def basedDigits? : List Char → Option (Nat × List Char)
  | '0' :: 'x' :: cs => some (16, cs)
  | '0' :: 'o' :: cs => some (8, cs)
  | '0' :: 'b' :: cs => some (2, cs)
  | _ => none

/-- The size of an integer without its sign. -/
def magnitude? (cs : List Char) : Option Nat :=
  match basedDigits? cs with
  | some (base, digits) => digitsIn? base digits
  | none => if isZeroPadded cs then none else digitsIn? 10 cs

/-- The sign and the size of an integer. -/
def integer? (cs : List Char) : Option (Bool × Nat) :=
  match cs with
  | '-' :: cs => (magnitude? cs).map fun n => (true, n)
  | '+' :: cs => (magnitude? cs).map fun n => (false, n)
  | cs => (magnitude? cs).map fun n => (false, n)

/-- The value of an integer that fits 64 bits. One that fits only twice as many is none of the
values; the inner `none` is one that fits neither. -/
def ofInteger? (negative : Bool) (n : Nat) : Option (Option Config.Value) :=
  if negative then
    if n = 0 then some (some (.natural 0))
    else if n ≤ Config.signedLimit then some (some .negative)
    else if n ≤ Nat.pow 2 127 then none
    else some none
  else if n < Config.naturalLimit then some (some (.natural n))
  else if n < Nat.pow 2 128 then none
  else some none

/-- The form of a number with a point or an exponent, without its sign. -/
def isDecimal (cs : List Char) : Bool :=
  let whole := cs.takeWhile Char.isDigit
  let rest := cs.dropWhile Char.isDigit
  let (fraction, rest) :=
    match rest with
    | '.' :: rest => (rest.takeWhile Char.isDigit, rest.dropWhile Char.isDigit)
    | rest => ([], rest)
  let ended :=
    match rest with
    | [] => true
    | e :: rest =>
      let digits := unsigned rest
      (e == 'e' || e == 'E') && !digits.isEmpty && digits.all Char.isDigit
  (!whole.isEmpty || !fraction.isEmpty) && ended

/-- The scalar is a number of floating point. -/
def isFloat (s : String) : Bool :=
  [".inf", ".Inf", ".INF", "+.inf", "+.Inf", "+.INF", "-.inf", "-.Inf", "-.INF", ".nan", ".NaN",
    ".NAN"].contains s ||
    (let cs := unsigned s.toList
     isDecimal cs && !(Config.Decimal.read cs).isHuge)

/-- What a plain scalar says; `none` is an integer that is too large. -/
def ofPlain? (s : String) : Option Config.Value :=
  let cs := s.toList
  let other : Config.Value :=
    if !isZeroPadded cs && isFloat s then .fractional else .text s
  if cs.isEmpty || isNull s then some .null
  else
    match bool? s with
    | some b => some (.bool b)
    | none =>
      match integer? cs with
      | some (negative, n) => (ofInteger? negative n).map (·.getD other)
      | none => some other

/-! ## Tags -/

/-- The tag of the core schema with the given name. -/
def coreTag (name : String) : String := "tag:yaml.org,2002:" ++ name

/-- A tag that begins with an exclamation mark names something which no value is. -/
def isLocal (tag : Option String) : Bool :=
  match tag.map String.toList with
  | some ('!' :: _) => true
  | _ => false

/-- What a scalar with a tag says. -/
def ofTagged? (tag s : String) : Option Config.Value :=
  if tag = coreTag "bool" then (bool? s).map .bool
  else if tag = coreTag "int" then
    match integer? s.toList with
    | some (negative, n) => (ofInteger? negative n).bind id
    | none => none
  else if tag = coreTag "float" then if isFloat s then some .fractional else none
  else if tag = coreTag "null" then if isNull s then some .null else none
  else some (.text s)

/-- What a scalar says. -/
def ofScalar? (tag : Option String) (plain : Bool) (s : String) : Option Config.Value :=
  match tag with
  | some tag => if isLocal (some tag) then none else ofTagged? tag s
  | none => if plain then ofPlain? s else some (.text s)

/-! ## Nodes -/

mutual

/-- The number of parts of a node: its scalars and aliases, and both ends of its collections. -/
def parts : Node → Nat
  | .scalar .. => 1
  | .alias _ => 1
  | .sequence _ items => 2 + itemParts items
  | .mapping _ entries => 2 + entryParts entries

/-- The number of parts of the members of a sequence. -/
def itemParts : List Node → Nat
  | [] => 0
  | n :: ns => parts n + itemParts ns

/-- The number of parts of the entries of a mapping. -/
def entryParts : List (Node × Node) → Nat
  | [] => 0
  | (k, v) :: es => parts k + parts v + entryParts es

end

/-- How often the aliases of a document may be followed. -/
def Document.followLimit (d : Document) : Nat := 100 * parts d.root

/-- A reading that may follow a number of aliases. -/
abbrev Reading := StateT Nat Option

/-- The node that a node stands for. -/
def follow (d : Document) : Node → Reading Node
  | .alias i => fun left =>
    match left, d.node? i with
    | left + 1, some node => some (node, left)
    | _, _ => none
  | node => pure node

/-- A key with a minus sign names no field, even if it is zero. -/
def ofKey (node : Node) (v : Config.Value) : Config.Value :=
  match node, v with
  | .scalar _ _ s, .natural n => if s.toList.head? = some '-' then .negative else .natural n
  | _, v => v

/-- What a node says, when collections may nest to `depth`. -/
def toConfig? (d : Document) : (depth : Nat) → Node → Reading Config.Value
  | depth, node => do
    match ← follow d node with
    | .scalar tag plain s => fun left => (ofScalar? tag plain s).map fun v => (v, left)
    | .alias _ => failure
    | .sequence tag items =>
      match depth with
      | 0 => failure
      | depth + 1 =>
        if isLocal tag then failure else return .list (← items.mapM (toConfig? d depth))
    | .mapping tag entries =>
      match depth with
      | 0 => failure
      | depth + 1 =>
        if isLocal tag then failure
        else
          return .table (← entries.mapM fun (key, v) => do
            let key ← follow d key
            return (ofKey key (← toConfig? d depth key), ← toConfig? d depth v))

/-- The text of a scalar, whatever it says. -/
def text? (d : Document) (node : Node) : Reading String := do
  match ← follow d node with
  | .scalar _ _ s => return s
  | _ => failure

end BlockEdit.Yaml
