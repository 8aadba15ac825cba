import BlockEdit.Config.Format
import BlockEdit.Edit.Decode

/-!
# Edits in configuration texts

In TOML an edit is a whole document, in JSON and YAML any value. `Edit.reader` reads an edit from a
text of each format.
-/

namespace BlockEdit

open Yaml (Document Node Reading)

/-- The edit that a TOML document stands for. -/
def Edit.ofToml? (entries : Toml.Entries) : Option Edit :=
  Edit.ofValue? (.table (Toml.entriesToConfig entries))

/-- The edit that a JSON value stands for, in which arrays and objects may nest to `depth`. -/
def Edit.ofJson? (depth : Nat) (v : Json.Value) : Option Edit := do
  Edit.ofValue? (← Json.toConfig? depth v)

/-- The value of an entry of an edit: the kind is a text, in whatever form it is written. -/
def Edit.entryOfYaml (d : Document) (depth : Nat) (key v : Node) :
    Reading (Config.Value × Config.Value) := do
  let keyNode ← Yaml.follow d key
  let key := Yaml.ofKey keyNode (← Yaml.toConfig? d depth keyNode)
  match key with
  | .text s =>
    if s = Edit.kindKey then return (key, .text (← Yaml.text? d v))
    else return (key, ← Yaml.toConfig? d depth v)
  | _ => return (key, ← Yaml.toConfig? d depth v)

/-- The edit that a node stands for, where collections may nest to `depth`. -/
def Edit.ofYaml (d : Document) (depth : Nat) (node : Node) : Reading Edit := do
  match ← Yaml.follow d node with
  | .mapping tag entries =>
    if Yaml.isLocal tag || depth = 0 then failure
    else
      let entries ← entries.mapM fun (key, v) => Edit.entryOfYaml d (depth - 1) key v
      StateT.lift (Edit.ofValue? (.table entries))
  | .sequence tag (kind :: items) =>
    if Yaml.isLocal tag || depth = 0 then failure
    else
      let kind ← Yaml.text? d kind
      let items ← items.mapM (Yaml.toConfig? d (depth - 1))
      StateT.lift (Edit.ofValue? (.list (.text kind :: items)))
  | _ => failure

/-- The edit that a YAML text stands for. -/
def Edit.ofYaml? (document : Option Document) : Option Edit := do
  (← document).read fun d => Edit.ofYaml d Yaml.depthLimit

/-- How an edit is read. -/
def Edit.reader : Config.Reader Edit := ⟨ofToml?, ofJson? Json.depthLimit, ofYaml?⟩

end BlockEdit
