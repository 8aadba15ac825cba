import BlockEdit.Json.Field
import BlockEdit.Toml.Config
import BlockEdit.Yaml.Field

/-!
# Formats of configuration texts

The extension of a file, in small letters, says which format its text has. A `Reader` says what a
text of each format means; a text that is none of its format means nothing.
-/

namespace BlockEdit.Config

/-- The formats. -/
inductive Format where
  | toml
  | json
  | yaml
  deriving DecidableEq, Repr

namespace Format

/-- The name of a format. -/
def name : Format → String
  | toml => "TOML"
  | json => "JSON"
  | yaml => "YAML"

/-- The format of the files with an extension. -/
def ofExtension? (extension : String) : Option Format :=
  [("toml", toml), ("json", json), ("yaml", yaml), ("yml", yaml)].lookup extension

end Format

/-- What the texts of each format mean. -/
structure Reader (α : Type) where
  toml : Toml.Entries → Option α
  json : Json.Value → Option α
  yaml : Option Yaml.Document → Option α

/-- What a text means, if it is one of its format that means anything. -/
def Reader.read? {α : Type} (reader : Reader α) (format : Format) (text : String) : Option α :=
  match format with
  | .toml => do reader.toml (← Toml.parse? text)
  | .json => do reader.json (← Json.parse? text)
  | .yaml => do reader.yaml (← Yaml.parse? text)

end BlockEdit.Config
