import BlockEdit.Edit.Encode
import BlockEdit.Edit.Formats
import BlockEdit.Json.Field
import BlockEdit.Manifest.Basic

/-!
# Manifests in JSON

A manifest and its jobs are records, each written as an object or as an array. `Manifest.toJson`
writes every field, and `Manifest.ofJson?` reads what it writes and all other forms.
-/

namespace BlockEdit

open Config (readOr readRequired)

/-- The job that a JSON value stands for. -/
def Job.ofJson? (v : Json.Value) : Option Job := do
  match ← v.fields? ["path", "edits"] with
  | [path, edits] =>
    let edit := Edit.ofJson? (Json.depthLimit - Manifest.levelsAroundEdit)
    return ⟨← readRequired Json.Value.text? path, ← readRequired (Json.Value.items? edit) edits⟩
  | _ => none

/-- The policy that a JSON value stands for. -/
def FailurePolicy.ofJson? : Json.Value → Option FailurePolicy := Json.Value.choice? names

/-- The manifest that a JSON value stands for. -/
def Manifest.ofJson? (v : Json.Value) : Option Manifest := do
  match ← v.fields? ["policy", "jobs"] with
  | [policy, jobs] =>
    return ⟨← readOr .default FailurePolicy.ofJson? policy,
      ← readOr [] (Json.Value.items? Job.ofJson?) jobs⟩
  | _ => none

/-- A policy as a JSON value. -/
def FailurePolicy.toJson (policy : FailurePolicy) : Json.Value := .ofText policy.word

/-- A job as a JSON value. -/
def Job.toJson (job : Job) : Json.Value :=
  .ofEntries [("path", .ofText job.path), ("edits", .array (job.edits.map Edit.toJson))]

/-- A manifest as a JSON value. -/
def Manifest.toJson (manifest : Manifest) : Json.Value :=
  .ofEntries [("policy", manifest.policy.toJson), ("jobs", .array (manifest.jobs.map Job.toJson))]

end BlockEdit
