import BlockEdit.Batch.Outcome

/-!
# Reports on batches

A report has an entry for each job of a batch, in the order of the jobs: what became of the job, the
outcome if its edits were carried out, and the error if it failed.
-/

namespace BlockEdit

/-- What became of a job. -/
inductive JobStatus where
  /-- The edits gave another text. -/
  | applied
  /-- The edits gave the same text. -/
  | unchanged
  | failed
  /-- The job was left out because one in front of it failed. -/
  | skipped
  deriving DecidableEq, Repr

/-- A status as it is written. -/
def JobStatus.word : JobStatus → String
  | applied => "applied"
  | unchanged => "unchanged"
  | failed => "failed"
  | skipped => "skipped"

/-- The entry for a job, which is counted from one. -/
structure JobReport where
  job : Nat
  path : String
  status : JobStatus
  outcome : Option FileOutcome
  error : Option String
  deriving DecidableEq, Repr

/-- The report on a batch. -/
structure BatchReport where
  success : Bool
  dryRun : Bool
  policy : FailurePolicy
  jobs : List JobReport
  deriving DecidableEq, Repr

namespace BatchReport

/-- The number of jobs with a status. -/
def count (report : BatchReport) (status : JobStatus) : Nat :=
  report.jobs.countP (·.status = status)

/-- The jobs that failed. -/
def failures (report : BatchReport) : List JobReport :=
  report.jobs.filter (·.status = .failed)

end BatchReport

end BlockEdit
