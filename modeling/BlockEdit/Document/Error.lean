import BlockEdit.Text.Quoted

/-!
# What can be wrong with a request on a document

An operation on a document fails either because the document does not have the shape that was
asked for (`DocumentError.isShapeMismatch`) or because the request itself makes no sense. Offsets
and lengths are counted in bytes, occurrences and lines from one.
-/

namespace BlockEdit

/-- Why a scan for the end of a block came to none. -/
inductive Imbalance where
  /-- The document of `length` bytes ends inside `depth` blocks. -/
  | unclosedAtEnd (depth length : Nat)
  /-- A close token at `offset` closes nothing. -/
  | unexpectedClose (offset : Nat)
  /-- The document of `length` bytes ends before any open token. -/
  | neverOpened (length : Nat)
  deriving DecidableEq, Repr

/-- The two tokens of a pair. -/
inductive TokenSide where
  | opening
  | closing
  deriving DecidableEq, Repr

/-- A failed operation on a document. -/
inductive DocumentError where
  /-- The document holds `found` matches of the marker, fewer than the `occurrence` asked for. -/
  | markerNotFound (marker : String) (occurrence found : Nat)
  /-- No balanced block begins at `start`. -/
  | unbalanced (start : Nat) (imbalance : Imbalance)
  /-- Occurrences are counted from one. -/
  | occurrenceZero
  /-- An empty marker marks nothing. -/
  | emptyMarker
  /-- An empty token delimits nothing. -/
  | emptyToken (side : TokenSide)
  /-- The offset lies outside the document of `length` bytes, or inside a character. -/
  | badOffset (offset length : Nat)
  /-- The span does not fit the document of `length` bytes. -/
  | badSpan (start stop length : Nat)
  deriving DecidableEq, Repr

/-- The sentence about an imbalance. -/
def Imbalance.message : Imbalance → String
  | .unclosedAtEnd depth length =>
    s!"{depth} block(s) still open at end of document (byte {length})"
  | .unexpectedClose offset => s!"close token at byte {offset} has no matching open token"
  | .neverOpened length =>
    s!"no open token between the start and end of document (byte {length})"

/-- The word for a token of a pair. -/
def TokenSide.word : TokenSide → String
  | .opening => "open"
  | .closing => "close"

/-- The sentence about a failed operation. -/
def DocumentError.message : DocumentError → String
  | .markerNotFound marker occurrence found =>
    "Marker not found: " ++ Text.quote marker ++
      s!" occurs {found} time(s), occurrence {occurrence} requested"
  | .unbalanced start imbalance =>
    s!"Unbalanced structure in block starting at byte {start}: " ++ imbalance.message
  | .occurrenceZero => "Occurrence index is 1-based, got 0"
  | .emptyMarker => "Marker must not be empty"
  | .emptyToken side => side.word ++ " token must not be empty"
  | .badOffset offset length =>
    s!"Offset {offset} is outside the document or splits a character (length {length})"
  | .badSpan start stop length =>
    s!"Invalid span {start}..{stop} for document of length {length}"

/-- The document lacks the shape that was asked for, as opposed to a request that fits none. -/
def DocumentError.isShapeMismatch : DocumentError → Bool
  | .markerNotFound .. | .unbalanced .. => true
  | _ => false

end BlockEdit
