import BlockEdit.Document.Error
import BlockEdit.Text.Occurrence

/-!
# Anchors

An anchor is the n-th occurrence, counted from one and without overlap, of a literal marker.

* `Anchor.find` gives its byte offset;
* `Anchor.insert` puts a text in front of it or behind it.

An occurrence of zero is refused before an empty marker is.
-/

namespace BlockEdit

/-- The side of an anchor on which content is inserted. -/
inductive Placement where
  | before
  | after
  deriving DecidableEq, Repr

/-- The word for a placement. -/
def Placement.word : Placement → String
  | .before => "before"
  | .after => "after"

namespace Anchor

/-- The number of matches of `marker`, counted from left to right without overlap. -/
def count (document marker : String) : Nat := (Text.occurrences marker document).length

/-- The byte offset of the `occurrence`-th match of `marker`. -/
def find (document marker : String) (occurrence : Nat) : Except DocumentError Nat :=
  if occurrence = 0 then .error .occurrenceZero
  else if marker.toList = [] then .error .emptyMarker
  else
    match (Text.occurrences marker document)[occurrence - 1]? with
    | some offset => .ok offset
    | none => .error (.markerNotFound marker occurrence (count document marker))

/-- The offset at which content goes that is placed by a match at `start`. -/
def insertionPoint (start : Nat) (marker : String) : Placement → Nat
  | .before => start
  | .after => start + marker.utf8ByteSize

/-- The document with `content` beside the `occurrence`-th match of `marker`. -/
def insert (document marker : String) (occurrence : Nat) (placement : Placement)
    (content : String) : Except DocumentError String :=
  match find document marker occurrence with
  | .error e => .error e
  | .ok start =>
    let offset := insertionPoint start marker placement
    match Text.cutAt? offset document.toList with
    | some (front, rest) => .ok (String.ofList (front ++ content.toList ++ rest))
    | none => .error (.badOffset offset document.utf8ByteSize)

/-- The document with `content` in front of the first match of `marker`. -/
def insertBefore (document marker content : String) : Except DocumentError String :=
  insert document marker 1 .before content

end Anchor

end BlockEdit
