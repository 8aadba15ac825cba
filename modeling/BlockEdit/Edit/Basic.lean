import BlockEdit.Document.Block

/-!
# Edits

An edit is one structural change to a document. `Edit.apply` carries it out, `Edit.applyAll`
carries out a list of edits, each on the result of the one before, and `Edit.describe` names an
edit in one line.
-/

namespace BlockEdit

/-- One structural change to a document. -/
inductive Edit where
  /-- Insert `content` beside the `occurrence`-th match of `marker`. -/
  | insert (marker : String) (occurrence : Nat) (placement : Placement) (content : String)
  /-- Replace the balanced block that begins at the `occurrence`-th match of `marker`. -/
  | replaceBlock (marker : String) (occurrence : Nat) (tokens : TokenPair) (replacement : String)
  /-- Replace a span of bytes. -/
  | replaceSpan (span : Span) (replacement : String)
  deriving DecidableEq, Repr

/-- The edit that failed, counted from one, and why. -/
structure EditFailure where
  edit : Nat
  cause : DocumentError
  deriving DecidableEq, Repr

/-- The sentence about a failed edit. -/
def EditFailure.message (f : EditFailure) : String := s!"edit {f.edit} failed: " ++ f.cause.message

namespace Edit

/-- The occurrence that an edit means when it names none. -/
def defaultOccurrence : Nat := 1

/-- The placement that an insertion means when it names none. -/
def defaultPlacement : Placement := .before

/-- The tokens that a block has when an edit names none. -/
def defaultTokens : TokenPair := .element "div"

/-- Insert `content` in front of the first match of `marker`. -/
def insertBefore (marker content : String) : Edit :=
  .insert marker defaultOccurrence .before content

/-- Replace the block of the default tokens at the `occurrence`-th match of `marker`. -/
def replaceDiv (marker : String) (occurrence : Nat) (replacement : String) : Edit :=
  .replaceBlock marker occurrence defaultTokens replacement

/-- The number of characters of a marker that are shown. -/
def previewSize : Nat := 40

/-- The head of the first line of a marker, with an ellipsis if anything is left out. -/
def preview (marker : String) : String :=
  let shown := ((Text.lines marker.toList).headD []).take previewSize
  let mark := if Text.byteSize shown < marker.utf8ByteSize then ['…'] else []
  String.ofList (shown ++ mark)

/-- An edit in one line. -/
def describe : Edit → String
  | .insert marker occurrence placement _ =>
    "insert " ++ placement.word ++ " " ++ Text.quote (preview marker) ++
      s!" #{occurrence}"
  | .replaceBlock marker occurrence tokens _ =>
    "replace " ++ tokens.opening ++ "…" ++ tokens.closing ++ " block at " ++
      Text.quote (preview marker) ++ s!" #{occurrence}"
  | .replaceSpan span _ => "replace span " ++ span.describe

/-- The document after one edit. -/
def apply (document : String) : Edit → Except DocumentError String
  | .insert marker occurrence placement content =>
    Anchor.insert document marker occurrence placement content
  | .replaceBlock marker occurrence tokens replacement =>
    match Block.locateNth document marker occurrence tokens with
    | .error e => .error e
    | .ok span => span.replace document replacement
  | .replaceSpan span replacement => span.replace document replacement

/-- The document after a list of edits, the first of which has the number `n`. -/
def applyFrom (n : Nat) (document : String) : List Edit → Except EditFailure String
  | [] => .ok document
  | edit :: edits =>
    match edit.apply document with
    | .error cause => .error ⟨n, cause⟩
    | .ok changed => applyFrom (n + 1) changed edits

/-- The document after a list of edits, each carried out on the result of the one before. -/
def applyAll (document : String) (edits : List Edit) : Except EditFailure String :=
  applyFrom 1 document edits

end Edit

end BlockEdit
