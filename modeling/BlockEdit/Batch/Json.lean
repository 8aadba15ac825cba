import BlockEdit.Batch.Report
import BlockEdit.Manifest.Json

/-!
# Reports in JSON

A report is written as an object with its fields in order; an outcome, an error and a difference are
left out if they are absent. `BatchReport.ofJson?` reads what `BatchReport.toJson` writes, and every
record of the report also as an array.
-/

namespace BlockEdit

open Config (readOr readRequired)

/-- The names of the statuses. -/
def JobStatus.names : List (String × JobStatus) :=
  [applied, unchanged, failed, skipped].map fun status => (status.word, status)

/-- A field that is left out if it is absent. -/
def optionalField {α : Type} (name : String) (write : α → Json.Value) :
    Option α → List (String × Json.Value)
  | none => []
  | some a => [(name, write a)]

/-- A summary as a JSON value. -/
def Diff.Summary.toJson (summary : Diff.Summary) : Json.Value :=
  .ofEntries [("inserted", .ofNat summary.inserted), ("deleted", .ofNat summary.deleted)]

/-- An outcome as a JSON value. -/
def FileOutcome.toJson (outcome : FileOutcome) : Json.Value :=
  .ofEntries
    ([("path", .ofText outcome.path), ("changed", .bool outcome.changed),
      ("written", .bool outcome.written), ("checksum_before", .ofText outcome.checksumBefore),
      ("checksum_after", .ofText outcome.checksumAfter), ("summary", outcome.summary.toJson)] ++
      optionalField "diff" .ofText outcome.diff)

/-- An entry as a JSON value. -/
def JobReport.toJson (report : JobReport) : Json.Value :=
  .ofEntries
    ([("job", .ofNat report.job), ("path", .ofText report.path),
      ("status", .ofText report.status.word)] ++
      optionalField "outcome" FileOutcome.toJson report.outcome ++
      optionalField "error" .ofText report.error)

/-- A report as a JSON value. -/
def BatchReport.toJson (report : BatchReport) : Json.Value :=
  .ofEntries
    [("success", .bool report.success), ("dry_run", .bool report.dryRun),
      ("policy", report.policy.toJson), ("jobs", .array (report.jobs.map JobReport.toJson))]

/-- The summary that a JSON value stands for. -/
def Diff.Summary.ofJson? (v : Json.Value) : Option Diff.Summary := do
  match ← v.fields? ["inserted", "deleted"] with
  | [inserted, deleted] =>
    return ⟨← readRequired Json.Value.natural? inserted, ← readRequired Json.Value.natural? deleted⟩
  | _ => none

/-- The outcome that a JSON value stands for. -/
def FileOutcome.ofJson? (v : Json.Value) : Option FileOutcome := do
  match ← v.fields?
      ["path", "changed", "written", "checksum_before", "checksum_after", "summary", "diff"] with
  | [path, changed, written, checksumBefore, checksumAfter, summary, diff] =>
    return {
      path := ← readRequired Json.Value.text? path
      changed := ← readRequired Json.Value.bool? changed
      written := ← readRequired Json.Value.bool? written
      checksumBefore := ← readRequired Json.Value.text? checksumBefore
      checksumAfter := ← readRequired Json.Value.text? checksumAfter
      summary := ← readRequired Diff.Summary.ofJson? summary
      diff := ← readOr none (Json.Value.nullOr? Json.Value.text?) diff }
  | _ => none

/-- The entry that a JSON value stands for. -/
def JobReport.ofJson? (v : Json.Value) : Option JobReport := do
  match ← v.fields? ["job", "path", "status", "outcome", "error"] with
  | [job, path, status, outcome, error] =>
    return {
      job := ← readRequired Json.Value.natural? job
      path := ← readRequired Json.Value.text? path
      status := ← readRequired (Json.Value.choice? JobStatus.names) status
      outcome := ← readOr none (Json.Value.nullOr? FileOutcome.ofJson?) outcome
      error := ← readOr none (Json.Value.nullOr? Json.Value.text?) error }
  | _ => none

/-- The report that a JSON value stands for. -/
def BatchReport.ofJson? (v : Json.Value) : Option BatchReport := do
  match ← v.fields? ["success", "dry_run", "policy", "jobs"] with
  | [success, dryRun, policy, jobs] =>
    return {
      success := ← readRequired Json.Value.bool? success
      dryRun := ← readRequired Json.Value.bool? dryRun
      policy := ← readRequired FailurePolicy.ofJson? policy
      jobs := ← readRequired (Json.Value.items? JobReport.ofJson?) jobs }
  | _ => none

end BlockEdit
