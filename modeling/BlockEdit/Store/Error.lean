import BlockEdit.Config.Format
import BlockEdit.Store.Fault

/-!
# What can go wrong with files
-/

namespace BlockEdit

/-- A failed operation on files. -/
inductive StoreError where
  | io (path : String) (fault : Fault)
  /-- A path that was given is not text; `shown` is what can be shown of it. -/
  | pathNotText (shown : String)
  /-- The file is not text. -/
  | notText (path : String)
  /-- The file has no meaning in its format. -/
  | badConfig (format : Config.Format) (path : String)
  /-- No format has the extension. -/
  | unknownFormat (extension : String)
  /-- Somebody else holds the lock for the file. -/
  | lockHeld (path : String)
  deriving DecidableEq, Repr

/-- The sentence about a failed operation. -/
def StoreError.message : StoreError → String
  | io path fault => "I/O error at " ++ path ++ ": " ++ fault.message
  | pathNotText shown => "Path is not valid UTF-8: " ++ shown
  | notText path => path ++ " is not valid UTF-8 text"
  | badConfig format path => "Failed to parse " ++ format.name ++ " config at " ++ path
  | unknownFormat extension => "Unsupported config format: " ++ extension
  | lockHeld path => "Lock acquisition failed for " ++ path

end BlockEdit
