import BlockEdit.Edit.Formats
import BlockEdit.Manifest.Basic

/-!
# Manifests in YAML

A manifest and its jobs are mappings. A text without a document is a manifest that says nothing.
-/

namespace BlockEdit

open Yaml (Document Node Reading)

/-- The job that a node stands for. -/
def Job.ofYaml (d : Document) (node : Node) : Reading Job := do
  match ← Yaml.fields d ["path", "edits"] node with
  | [path, edits] =>
    let path ← Yaml.required (Yaml.text? d) path
    let edits ← Yaml.required (Yaml.items d) edits
    return ⟨path, ← edits.mapM (Edit.ofYaml d (Yaml.depthLimit - Manifest.levelsAroundEdit))⟩
  | _ => failure

/-- The manifest that a node stands for. -/
def Manifest.ofYaml (d : Document) (node : Node) : Reading Manifest := do
  match ← Yaml.fields d ["policy", "jobs"] node with
  | [policy, jobs] =>
    let policy ← Yaml.optional .default (Yaml.choice d FailurePolicy.names) policy
    let jobs ← Yaml.optional [] (Yaml.items d) jobs
    return ⟨policy, ← jobs.mapM (Job.ofYaml d)⟩
  | _ => failure

/-- The manifest that a text stands for. -/
def Manifest.ofYaml? : Option Document → Option Manifest
  | none => some .empty
  | some d => d.read Manifest.ofYaml

end BlockEdit
