import BlockEdit.Diff.Compaction

/-!
# Segments of a diff

What is shown of a script are its segments: stretches that stay the same, and changes between them.
A change joins the deletions and the insertions of its place; both sides keep the place of their
first run.
-/

namespace BlockEdit.Diff

/-- A stretch of lines that stays the same or changes, with its place in both texts. -/
structure Segment where
  same : Bool
  oldStart : Nat
  oldSize : Nat
  newStart : Nat
  newSize : Nat
  deriving DecidableEq, Repr

namespace Segment

/-- A run of a script as a segment. -/
def ofOp (op : Op) : Segment :=
  ⟨op.kind = .equal, op.oldStart, op.oldSize, op.newStart, op.newSize⟩

/-- The end of a segment in the old text. -/
def oldStop (s : Segment) : Nat := s.oldStart + s.oldSize

/-- The end of a segment in the new text. -/
def newStop (s : Segment) : Nat := s.newStart + s.newSize

/-- A change that holds the old lines of one run and the new lines of another. -/
def change (deletion insertion : Op) : Segment :=
  ⟨false, deletion.oldStart, deletion.oldSize, insertion.newStart, insertion.newSize⟩

end Segment

/-- The segment that is being put together. -/
inductive Pending where
  | nothing
  | equal (op : Op)
  | change (deletion insertion : Option Op)

/-- The segment that is complete when none of its kind follows. -/
def Pending.finish : Pending → List Segment
  | .nothing => []
  | .equal op => [.ofOp op]
  | .change (some d) (some i) => [.change d i]
  | .change (some d) none => [.ofOp d]
  | .change none (some i) => [.ofOp i]
  | .change none none => []

/-- A run joined to the one that came before, if any. -/
def joinTo (first : Option Op) (op : Op) : Option Op :=
  match first with
  | some first => some (first.join op)
  | none => some op

/-- The segments of a script behind the one that is being put together. -/
def gather (pending : Pending) : List Op → List Segment
  | [] => pending.finish
  | op :: ops =>
    match op.kind, pending with
    | .equal, .equal first => gather (.equal (first.join op)) ops
    | .equal, pending => pending.finish ++ gather (.equal op) ops
    | .delete, .change d i => gather (.change (joinTo d op) i) ops
    | .delete, pending => pending.finish ++ gather (.change (some op) none) ops
    | .insert, .change d i => gather (.change d (joinTo i op)) ops
    | .insert, pending => pending.finish ++ gather (.change none (some op)) ops

/-- The lines of two texts. -/
def Pair.ofTexts (old new : String) : Pair := ⟨lines old, lines new⟩

/-- The segments of the difference between two texts. -/
def Pair.segments (p : Pair) : List Segment := gather .nothing (p.compact p.compare)

/-- How many lines a change inserts and deletes. -/
structure Summary where
  inserted : Nat
  deleted : Nat
  deriving DecidableEq, Repr

namespace Summary

/-- The lines that the changes among the segments insert and delete. -/
def ofSegments (segments : List Segment) : Summary :=
  let changes := segments.filter (!·.same)
  ⟨changes.foldr (fun s n => s.newSize + n) 0, changes.foldr (fun s n => s.oldSize + n) 0⟩

/-- The lines that are inserted and deleted between two texts. -/
def between (old new : String) : Summary := ofSegments (Pair.ofTexts old new).segments

/-- Nothing is inserted and nothing deleted. -/
def isEmpty (s : Summary) : Bool := s.inserted == 0 && s.deleted == 0

/-- A summary as it is shown. -/
def describe (s : Summary) : String := s!"+{s.inserted} -{s.deleted}"

end Summary

end BlockEdit.Diff
