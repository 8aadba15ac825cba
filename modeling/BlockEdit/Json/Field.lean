import BlockEdit.Config.Field
import BlockEdit.Json.Config

/-!
# Records in JSON

A record is an object with a key for each of its fields, or the array of its fields in order, from
which the last ones may be left out. Every key of the object has to be a text; what belongs to keys
that name no field is not read.
-/

namespace BlockEdit.Json

/-- The entries of an object with their keys read. -/
def textEntries? (entries : List (List Char × Value)) : Option (List (String × Value)) :=
  entries.mapM fun (key, v) => (text? key).map fun key => (key, v)

/-- The values of the fields of a record, `none` for those that are not written. -/
def Value.fields? (names : List String) : Value → Option (List (Option Value))
  | .object entries => do Config.pick? names (← textEntries? entries)
  | .array items =>
    if items.length ≤ names.length then
      some (items.map some ++ List.replicate (names.length - items.length) none)
    else none
  | _ => none

/-- The text of a string. -/
def Value.text? : Value → Option String
  | .string l => Json.text? l
  | _ => none

/-- The number of digits that are a natural. -/
def Value.natural? : Value → Option Nat
  | .number l => Json.natural? l
  | _ => none

/-- The truth value. -/
def Value.bool? : Value → Option Bool
  | .bool b => some b
  | _ => none

/-- The items of an array, each of them read. -/
def Value.items? {α : Type} (read : Value → Option α) : Value → Option (List α)
  | .array items => items.mapM read
  | _ => none

/-- Nothing, or what is read. -/
def Value.nullOr? {α : Type} (read : Value → Option α) : Value → Option (Option α)
  | .null => some none
  | v => (read v).map some

/-- One of a choice of names, written as the name or as an object that has the name for its one key
and nothing behind it. -/
def Value.choice? {α : Type} (variants : List (String × α)) : Value → Option α
  | .string l => do variants.lookup (← Json.text? l)
  | .object [(key, .null)] => do variants.lookup (← Json.text? key)
  | _ => none

end BlockEdit.Json
