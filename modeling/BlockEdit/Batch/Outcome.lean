import BlockEdit.Batch.Error
import BlockEdit.Checksum.Basic
import BlockEdit.Diff.Unified
import BlockEdit.Store.Read
import BlockEdit.Store.Write

/-!
# Edits carried out on a file

`Store.editFile` reads a file, carries out a list of edits, and writes the file back if its text has
changed. All edits have to succeed before anything is written. A dry run writes nothing and shows
the difference instead.
-/

namespace BlockEdit

/-- What happened to a file. -/
structure FileOutcome where
  path : String
  /-- The edits give another text. -/
  changed : Bool
  /-- The other text was written. -/
  written : Bool
  checksumBefore : String
  checksumAfter : String
  summary : Diff.Summary
  /-- The difference, where it is shown. -/
  diff : Option String
  deriving DecidableEq, Repr

/-- How files are edited: by which process, and whether they are written. -/
structure EditOptions where
  process : Nat
  dryRun : Bool

/-- The outcome for a file whose text `old` the edits make `new`. -/
def FileOutcome.ofTexts (path : Path) (dryRun : Bool) (old new : String) : FileOutcome :=
  { path := path.text
    changed := old != new
    written := old != new && !dryRun
    checksumBefore := Checksum.ofText old
    checksumAfter := Checksum.ofText new
    summary := .between old new
    diff := if dryRun && old != new then some (Diff.unified path.text old new) else none }

/-- The store after a list of edits on a file, and the outcome. -/
def Store.editFile (s : Store) (options : EditOptions) (path : Path) (edits : List Edit) :
    Store × Except BatchError FileOutcome :=
  match s.readText path with
  | .error e => (s, .error (.store e))
  | .ok old =>
    match Edit.applyAll old edits with
    | .error failure => (s, .error (.edit path failure))
    | .ok new =>
      let outcome := FileOutcome.ofTexts path options.dryRun old new
      if outcome.written then
        match s.write options.process path new.toUTF8 with
        | (s, .error e) => (s, .error (.store e))
        | (s, .ok ()) => (s, .ok outcome)
      else (s, .ok outcome)

end BlockEdit
