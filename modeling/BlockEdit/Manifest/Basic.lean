import BlockEdit.Edit.Basic
import BlockEdit.Path.Basic
import BlockEdit.Text.Blank

/-!
# Manifests

A manifest lists jobs, each of which names a file and the edits for it, and says what happens when
a job fails.

`Manifest.validate` refuses a manifest with a job that has no path or no edits, and one in which two
jobs have the same target. It blames the first job that goes wrong. Targets are compared as
normalized paths, seen from a root if there is one.
-/

namespace BlockEdit

/-- What a batch does when a job fails: leave out the jobs behind it, or run them all. -/
inductive FailurePolicy where
  | failFast
  | keepGoing
  deriving DecidableEq, Repr

namespace FailurePolicy

/-- The policy of a manifest that names none. -/
def default : FailurePolicy := .failFast

/-- A policy as it is written. -/
def word : FailurePolicy → String
  | .failFast => "fail-fast"
  | .keepGoing => "keep-going"

/-- The names of the policies. -/
def names : List (String × FailurePolicy) :=
  [(failFast.word, failFast), (keepGoing.word, keepGoing)]

end FailurePolicy

/-- The edits for one file. -/
structure Job where
  path : String
  edits : List Edit
  deriving DecidableEq, Repr

/-- A list of jobs. -/
structure Manifest where
  policy : FailurePolicy
  jobs : List Job
  deriving DecidableEq, Repr

/-- What is wrong with a manifest. Jobs are counted from one. -/
inductive ManifestError where
  | pathMissing (job : Nat)
  | editsMissing (job : Nat) (path : String)
  /-- The target of a job is that of an earlier one. -/
  | duplicateTarget (target : Path) (first second : Nat)
  deriving DecidableEq, Repr

/-- The sentence about a bad manifest. -/
def ManifestError.message : ManifestError → String
  | .pathMissing job => s!"Invalid manifest: job {job} has no path"
  | .editsMissing job path => s!"Invalid manifest: job {job} (" ++ path ++ ") has no edits"
  | .duplicateTarget target first second =>
    target.text ++ s!" is targeted by jobs {first} and {second}; merge their edits into one job"

/-- The file that a job is for, as seen from a root. -/
def Job.target (root : Path) (job : Job) : Path := (Path.ofString job.path).resolveAgainst root

namespace Manifest

/-- How many lists and tables stand around an edit of a written manifest: the manifest, its jobs,
the job and its edits. -/
def levelsAroundEdit : Nat := 4

/-- The manifest that says nothing. -/
def empty : Manifest := ⟨.default, []⟩

/-- The first fault of the jobs from number `n` on, when those in front have the given targets with
their numbers. -/
def checkFrom (target : Job → Path) (n : Nat) (seen : List (Path × Nat)) :
    List Job → Except ManifestError Unit
  | [] => .ok ()
  | job :: jobs =>
    if Text.isBlankText job.path then .error (.pathMissing n)
    else if job.edits.isEmpty then .error (.editsMissing n job.path)
    else
      match seen.lookup (target job) with
      | some first => .error (.duplicateTarget (target job) first n)
      | none => checkFrom target (n + 1) ((target job, n) :: seen) jobs

/-- Checks a manifest by itself. -/
def validate (manifest : Manifest) : Except ManifestError Unit :=
  checkFrom (fun job => .ofString job.path) 1 [] manifest.jobs

/-- Checks a manifest with its paths seen from a root. -/
def validateFrom (root : Path) (manifest : Manifest) : Except ManifestError Unit :=
  checkFrom (·.target root) 1 [] manifest.jobs

end Manifest

end BlockEdit
