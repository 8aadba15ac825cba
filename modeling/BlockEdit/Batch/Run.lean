import BlockEdit.Batch.Report
import BlockEdit.Manifest.Formats

/-!
# Running batches

The jobs of a batch are run one after another, each on the store that those in front of it leave.
After a failed job the policy says whether the others are still run. `Batch.run` runs a list of
jobs, and `Batch.runManifest` the jobs of a manifest that is valid under the root of the batch.
-/

namespace BlockEdit

/-- How jobs are run: from which directory their paths are seen, and what a failure leads to. -/
structure Batch where
  root : Path
  policy : FailurePolicy
  options : EditOptions

namespace Batch

/-- The entry for a job that was run. -/
def entry (n : Nat) (path : Path) : Except BatchError FileOutcome → JobReport
  | .ok outcome =>
    ⟨n, path.text, if outcome.changed then .applied else .unchanged, some outcome, none⟩
  | .error e => ⟨n, path.text, .failed, none, some e.message⟩

/-- The entry for a job that was not run. -/
def skippedEntry (n : Nat) (path : Path) : JobReport := ⟨n, path.text, .skipped, none, none⟩

/-- Runs a job, unless the batch is stopped. -/
def runJob (b : Batch) (stopped : Bool) (n : Nat) (s : Store) (job : Job) : Store × JobReport :=
  let path := job.target b.root
  if stopped then (s, skippedEntry n path)
  else
    match s.editFile b.options path job.edits with
    | (s, result) => (s, entry n path result)

/-- A batch is stopped after an entry. -/
def stopsAfter (b : Batch) (report : JobReport) : Bool :=
  report.status = .failed && b.policy = .failFast

/-- Runs the jobs from number `n` on. -/
def runFrom (b : Batch) (stopped : Bool) (n : Nat) (s : Store) : List Job → Store × List JobReport
  | [] => (s, [])
  | job :: jobs =>
    match b.runJob stopped n s job with
    | (s, report) =>
      match b.runFrom (stopped || b.stopsAfter report) (n + 1) s jobs with
      | (s, reports) => (s, report :: reports)

/-- The report with the given entries. -/
def report (b : Batch) (entries : List JobReport) : BatchReport :=
  ⟨entries.all (·.status ≠ .failed), b.options.dryRun, b.policy, entries⟩

/-- Runs a list of jobs. -/
def run (b : Batch) (s : Store) (jobs : List Job) : Store × BatchReport :=
  match b.runFrom false 1 s jobs with
  | (s, entries) => (s, b.report entries)

/-- Runs the jobs of a manifest. -/
def runManifest (b : Batch) (s : Store) (manifest : Manifest) :
    Store × Except BatchError BatchReport :=
  match manifest.validateFrom b.root with
  | .error e => (s, .error (.manifest e))
  | .ok () =>
    match b.run s manifest.jobs with
    | (s, report) => (s, .ok report)

end Batch

/-- The manifest in the file that a path leads to, if it is valid by itself. -/
def Store.loadManifest (s : Store) (path : Path) : Except BatchError Manifest :=
  match s.load Manifest.reader path with
  | .error e => .error (.store e)
  | .ok manifest =>
    match manifest.validate with
    | .error e => .error (.manifest e)
    | .ok () => .ok manifest

end BlockEdit
