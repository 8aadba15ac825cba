import BlockEdit.Config.Value

/-!
# Fields of a record

A record is written as a table with a key for each of its fields, in any order, or as the list of
all its fields in their own order. Keys that name no field are ignored. A field that is written
twice makes the record invalid; where keys may be numbers, a number names the field at its place.

`pick? names entries` and `Value.fields? names v` give the value of each field that is written, in
the order of `names`.
-/

namespace BlockEdit.Config

/-- Whether a key names a field, and which: the outer `none` is a key that names nothing. -/
def Value.fieldIndex? (names : List String) : Value → Option (Option Nat)
  | .text s => some (names.idxOf? s)
  | .natural n => some (if n < names.length then some n else none)
  | _ => none

/-- The entries of a table that belong to fields, by the place of the field. -/
def numbered? (names : List String) : List (Value × Value) → Option (List (Nat × Value))
  | [] => some []
  | (key, v) :: es => do
    let index ← key.fieldIndex? names
    let rest ← numbered? names es
    match index with
    | some i => return (i, v) :: rest
    | none => return rest

/-- The value of the field at the place `i`, where no field is written twice. -/
def valueAt? {α : Type} (entries : List (Nat × α)) (i : Nat) : Option (Option α) :=
  match entries.filter (·.1 = i) with
  | [] => some none
  | [(_, v)] => some (some v)
  | _ => none

/-- The values of the first `count` fields. -/
def valuesUpTo? {α : Type} (count : Nat) (entries : List (Nat × α)) : Option (List (Option α)) :=
  (List.range count).mapM (valueAt? entries)

/-- The values of the fields of a record whose keys are all texts. -/
def pick? {α : Type} (names : List String) (entries : List (String × α)) :
    Option (List (Option α)) :=
  valuesUpTo? names.length
    (entries.filterMap fun (key, v) => (names.idxOf? key).map fun i => (i, v))

/-- The values of the fields of a record that is written as a table. -/
def tableFields? (names : List String) (entries : List (Value × Value)) :
    Option (List (Option Value)) := do valuesUpTo? names.length (← numbered? names entries)

/-- The values of the fields of a record that is written as a table or as a list of all of them,
`none` for those that are not written. -/
def Value.fields? (names : List String) : Value → Option (List (Option Value))
  | .table entries => tableFields? names entries
  | .list items => if items.length = names.length then some (items.map some) else none
  | _ => none

/-- The value of a field that has a default. -/
def readOr {α β : Type} (default : β) (read : α → Option β) : Option α → Option β
  | none => some default
  | some v => read v

/-- The value of a field that must be written. -/
def readRequired {α β : Type} (read : α → Option β) : Option α → Option β
  | none => none
  | some v => read v

/-- The variant that a name or a number stands for. -/
def Value.variant? {α : Type} (variants : List (String × α)) : Value → Option α
  | .text s => variants.lookup s
  | .natural n => variants[n]?.map (·.2)
  | _ => none

/-- One of a choice of names, written as the name or as a table whose one key is the name. -/
def Value.choice? {α : Type} (variants : List (String × α)) : Value → Option α
  | .text s => variants.lookup s
  | .table [(key, v)] => if v.isUnit then key.variant? variants else none
  | _ => none

end BlockEdit.Config
