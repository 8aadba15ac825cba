import BlockEdit.Config.Field
import BlockEdit.Yaml.Config

/-!
# Records in YAML

A record is a mapping with a key for each of its fields, the key being the text of any scalar. An
empty scalar stands for a list without items and for a mapping without entries. What belongs to keys
that name no field is not read, and its aliases are not followed.
-/

namespace BlockEdit.Yaml

/-- The scalar is empty and has no quotes. -/
def isEmptyScalar (plain : Bool) (s : String) : Bool := plain && s.isEmpty

/-- The nodes of a list. -/
def items (d : Document) (node : Node) : Reading (List Node) := do
  match ← follow d node with
  | .sequence _ items => return items
  | .scalar _ plain s => if isEmptyScalar plain s then return [] else failure
  | _ => failure

/-- The nodes of the fields of a record, by the texts of their keys. -/
def fields (d : Document) (names : List String) (node : Node) :
    Reading (List (Option Node)) := do
  match ← follow d node with
  | .mapping _ entries =>
    let entries ← entries.mapM fun (key, v) => return (← text? d key, v)
    StateT.lift (Config.pick? names entries)
  | .scalar _ plain s =>
    if isEmptyScalar plain s then StateT.lift (Config.pick? names []) else failure
  | _ => failure

/-- One of a choice of names, written as the name or as a tag with nothing behind it. -/
def choice {α : Type} (d : Document) (variants : List (String × α)) (node : Node) :
    Reading α := do
  match ← follow d node with
  | .scalar tag plain s =>
    match tag.map String.toList with
    | some ('!' :: c :: name) =>
      if plain && (s.isEmpty || isNull s) then
        StateT.lift (variants.lookup (String.ofList (c :: name)))
      else failure
    | _ => StateT.lift (variants.lookup s)
  | _ => failure

/-- The field that is read from its node, if it is there. -/
def optional {α : Type} (default : α) (read : Node → Reading α) : Option Node → Reading α
  | none => pure default
  | some node => read node

/-- The field that is read from its node. -/
def required {α : Type} (read : Node → Reading α) : Option Node → Reading α
  | none => failure
  | some node => read node

/-- What is read from a document. -/
def Document.read {α : Type} (d : Document) (reading : Document → Node → Reading α) : Option α :=
  (reading d d.root |>.run d.followLimit).map (·.1)

end BlockEdit.Yaml
