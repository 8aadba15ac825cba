import BlockEdit.Edit.Formats
import BlockEdit.Manifest.Basic

/-!
# Manifests in TOML

A manifest is a document; its jobs are tables or lists.
-/

namespace BlockEdit

open Config (readOr readRequired)

/-- The job that a TOML value stands for. -/
def Job.ofToml? (v : Toml.Value) : Option Job := do
  match ← v.fields? ["path", "edits"] with
  | [path, edits] =>
    let items ← readRequired Toml.Value.items? edits
    return ⟨← readRequired Toml.Value.text? path,
      ← items.mapM fun item => Edit.ofValue? (Toml.toConfig item)⟩
  | _ => none

/-- The manifest that a document stands for. -/
def Manifest.ofToml? (entries : Toml.Entries) : Option Manifest := do
  match ← Config.pick? ["policy", "jobs"] entries with
  | [policy, jobs] =>
    return ⟨← readOr .default (Toml.Value.choice? FailurePolicy.names) policy,
      ← readOr [] (fun v => do (← v.items?).mapM Job.ofToml?) jobs⟩
  | _ => none

end BlockEdit
