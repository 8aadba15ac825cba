import BlockEdit.Config.Field
import BlockEdit.Edit.Basic

/-!
# Edits in configuration values

An edit is written as a record of one of three kinds, which the entry `kind` names wherever it
stands in the table; in a list the kind comes first. The fields `occurrence`, `placement` and
`tokens` have defaults.

`Edit.ofValue?` reads an edit from a value of any format.
-/

namespace BlockEdit

open Config (Value readOr readRequired)

/-- The names of the placements. -/
def Placement.names : List (String × Placement) := [("before", .before), ("after", .after)]

/-- The tokens that a value stands for. -/
def TokenPair.ofValue? (v : Value) : Option TokenPair := do
  match ← v.fields? ["open", "close"] with
  | [opening, closing] =>
    return ⟨← readRequired Value.text? opening, ← readRequired Value.text? closing⟩
  | _ => none

namespace Edit

/-- The kinds of edits. -/
inductive Kind where
  | insert
  | replaceBlock
  | replaceSpan
  deriving DecidableEq, Repr

/-- The names of the kinds. -/
def Kind.names : List (String × Kind) :=
  [("insert", .insert), ("replace-block", .replaceBlock), ("replace-span", .replaceSpan)]

/-- The fields of an edit of each kind. -/
def Kind.fields : Kind → List String
  | .insert => ["marker", "occurrence", "placement", "content"]
  | .replaceBlock => ["marker", "occurrence", "tokens", "replacement"]
  | .replaceSpan => ["start", "end", "replacement"]

/-- The edit of a kind with the given fields. -/
def ofFields? : Kind → List (Option Value) → Option Edit
  | .insert, [marker, occurrence, placement, content] => do
    return .insert (← readRequired Value.text? marker)
      (← readOr defaultOccurrence Value.natural? occurrence)
      (← readOr defaultPlacement (Value.choice? Placement.names) placement)
      (← readRequired Value.text? content)
  | .replaceBlock, [marker, occurrence, tokens, replacement] => do
    return .replaceBlock (← readRequired Value.text? marker)
      (← readOr defaultOccurrence Value.natural? occurrence)
      (← readOr defaultTokens TokenPair.ofValue? tokens)
      (← readRequired Value.text? replacement)
  | .replaceSpan, [start, stop, replacement] => do
    return .replaceSpan
      ⟨← readRequired Value.natural? start, ← readRequired Value.natural? stop⟩
      (← readRequired Value.text? replacement)
  | _, _ => none

/-- The key of the entry that names the kind. -/
def kindKey : String := "kind"

/-- The entry names the kind. -/
def isKindEntry (entry : Value × Value) : Bool :=
  match entry.1 with
  | .text s => s == kindKey
  | _ => false

/-- The kind that a value names. -/
def kind? (v : Value) : Option Kind :=
  match v with
  | .text s => Kind.names.lookup s
  | _ => none

/-- The edit that a value stands for. -/
def ofValue? : Value → Option Edit
  | .table entries => do
    match entries.filter isKindEntry with
    | [(_, name)] =>
      let kind ← kind? name
      let fields ← (Value.table (entries.filter (!isKindEntry ·))).fields? kind.fields
      ofFields? kind fields
    | _ => none
  | .list (name :: items) => do
    let kind ← kind? name
    let fields ← (Value.list items).fields? kind.fields
    ofFields? kind fields
  | _ => none

end Edit

end BlockEdit
