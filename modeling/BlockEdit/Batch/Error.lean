import BlockEdit.Edit.Basic
import BlockEdit.Manifest.Basic
import BlockEdit.Store.Error

/-!
# What can go wrong with a batch
-/

namespace BlockEdit

/-- A failed job, or a batch that cannot be run. -/
inductive BatchError where
  /-- An edit of the file at `path` failed. -/
  | edit (path : Path) (failure : EditFailure)
  | manifest (e : ManifestError)
  | store (e : StoreError)
  deriving DecidableEq, Repr

/-- The sentence about a failed batch. -/
def BatchError.message : BatchError → String
  | edit path failure => path.text ++ ": " ++ failure.message
  | manifest e => e.message
  | store e => e.message

end BlockEdit
