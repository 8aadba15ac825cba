import BlockEdit.Manifest.Json
import BlockEdit.Manifest.Toml
import BlockEdit.Manifest.Yaml

/-!
# Manifests in configuration texts
-/

namespace BlockEdit

/-- How a manifest is read. -/
def Manifest.reader : Config.Reader Manifest := ⟨ofToml?, ofJson?, ofYaml?⟩

end BlockEdit
