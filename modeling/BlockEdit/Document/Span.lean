import BlockEdit.Document.Error
import BlockEdit.Text.Bytes
import BlockEdit.Text.Lines

/-!
# Spans

A span is a half-open interval of byte offsets. It fits a document when its ends are in order, lie
inside the document and split no character; then it has a text there (`Span.slice?`) and can be
replaced (`Span.replace`).
-/

namespace BlockEdit

/-- The bytes from `start` up to, but without, `stop`. -/
structure Span where
  start : Nat
  stop : Nat
  deriving DecidableEq, Repr

namespace Span

/-- The number of bytes, zero when the ends are reversed. -/
def size (span : Span) : Nat := span.stop - span.start

/-- The span covers no byte. -/
def isEmpty (span : Span) : Bool := span.size == 0

/-- The two offsets as text. -/
def describe (span : Span) : String := s!"{span.start}..{span.stop}"

/-- The span fits the document. -/
def fits (span : Span) (document : String) : Bool :=
  span.start ≤ span.stop && (Text.cutAt? span.start document.toList).isSome &&
    (Text.cutAt? span.stop document.toList).isSome

/-- Refuses a span that does not fit the document. -/
def validate (span : Span) (document : String) : Except DocumentError Unit :=
  if span.fits document then .ok ()
  else .error (.badSpan span.start span.stop document.utf8ByteSize)

/-- The text of the span, if it fits the document. -/
def slice? (span : Span) (document : String) : Option String :=
  match Text.cutAt? span.stop document.toList with
  | none => none
  | some (front, _) => (Text.cutAt? span.start front).map fun (_, text) => String.ofList text

/-- The number of line feeds among the first `n` bytes of a text. -/
def lineFeedsBefore : Nat → List Char → Nat
  | 0, _ => 0
  | _ + 1, [] => 0
  | n + 1, c :: cs => (if c = '\n' then 1 else 0) + lineFeedsBefore (n + 1 - c.utf8Size) cs

/-- The number of the line on which the byte offset `n` lies. -/
def lineAt (document : String) (n : Nat) : Nat := lineFeedsBefore n document.toList + 1

/-- The lines of the first and the last byte of a span; an empty span lies on one line. -/
def lines (span : Span) (document : String) : Nat × Nat :=
  let last := if span.isEmpty then span.start else span.stop - 1
  (lineAt document span.start, lineAt document last)

/-- The document with `replacement` in the place of the span. -/
def replace (span : Span) (document replacement : String) : Except DocumentError String :=
  match span.validate document with
  | .error e => .error e
  | .ok () =>
    match Text.cutAt? span.start document.toList, Text.cutAt? span.stop document.toList with
    | some (front, _), some (_, rest) =>
      .ok (String.ofList (front ++ replacement.toList ++ rest))
    | _, _ => .error (.badSpan span.start span.stop document.utf8ByteSize)

end Span

end BlockEdit
