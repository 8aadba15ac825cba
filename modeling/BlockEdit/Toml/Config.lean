import BlockEdit.Config.Field
import BlockEdit.Toml.Document

/-!
# TOML values as configuration values
-/

namespace BlockEdit.Toml

/-- The configuration value of an integer. -/
def ofInteger (n : Int) : Config.Value := if n < 0 then .negative else .natural n.toNat

mutual

/-- The configuration value of a TOML value. -/
def toConfig : Value → Config.Value
  | .text s => .text s
  | .integer n => ofInteger n
  | .bool b => .bool b
  | .float => .fractional
  | .moment => .fractional
  | .array items => .list (itemsToConfig items)
  | .table _ entries => .table (entriesToConfig entries)
  | .tables members => .list (membersToConfig members).reverse

/-- The configuration values of the items of an array. -/
def itemsToConfig : List Value → List Config.Value
  | [] => []
  | v :: vs => toConfig v :: itemsToConfig vs

/-- The configuration values of the entries of a table. -/
def entriesToConfig : List (String × Value) → List (Config.Value × Config.Value)
  | [] => []
  | (key, v) :: es => (.text key, toConfig v) :: entriesToConfig es

/-- The configuration values of the tables that have the same header. -/
def membersToConfig : List (List (String × Value)) → List Config.Value
  | [] => []
  | es :: members => .table (entriesToConfig es) :: membersToConfig members

end

/-- The items of a list, or the tables that have the same header. -/
def Value.items? : Value → Option (List Value)
  | .array items => some items
  | .tables members => some (members.reverse.map (.table .header))
  | _ => none

/-- The text of a text value. -/
def Value.text? : Value → Option String
  | .text s => some s
  | _ => none

/-- The values of the fields of a record that is written as a table, or as a list that begins with
all of them. -/
def Value.fields? (names : List String) : Value → Option (List (Option Value))
  | .table _ entries => Config.pick? names entries
  | .tables members => listFields? (members.reverse.map (.table .header))
  | .array items => listFields? items
  | _ => none
where
  listFields? (items : List Value) : Option (List (Option Value)) :=
    if items.length < names.length then none else some ((items.take names.length).map some)

/-- Nothing but an empty table or list. -/
def Value.isUnit : Value → Bool
  | .table _ [] => true
  | .array [] => true
  | _ => false

/-- One of a choice of names, written as the name or as a table that has the name for its one key
and nothing behind it. -/
def Value.choice? {α : Type} (variants : List (String × α)) : Value → Option α
  | .text s => variants.lookup s
  | .table _ [(key, v)] => if v.isUnit then variants.lookup key else none
  | _ => none

end BlockEdit.Toml
