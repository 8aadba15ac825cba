import BlockEdit.Edit.Decode
import BlockEdit.Json.Writer

/-!
# Edits as JSON

An edit is written as an object with its kind and all of its fields, those with defaults included.
-/

namespace BlockEdit

open Json (Value)

/-- The tokens as a JSON value. -/
def TokenPair.toJson (tokens : TokenPair) : Value :=
  .ofEntries [("open", .ofText tokens.opening), ("close", .ofText tokens.closing)]

/-- An edit as a JSON value. -/
def Edit.toJson : Edit → Value
  | .insert marker occurrence placement content =>
    .ofEntries [("kind", .ofText "insert"), ("marker", .ofText marker),
      ("occurrence", .ofNat occurrence), ("placement", .ofText placement.word),
      ("content", .ofText content)]
  | .replaceBlock marker occurrence tokens replacement =>
    .ofEntries [("kind", .ofText "replace-block"), ("marker", .ofText marker),
      ("occurrence", .ofNat occurrence), ("tokens", tokens.toJson),
      ("replacement", .ofText replacement)]
  | .replaceSpan span replacement =>
    .ofEntries [("kind", .ofText "replace-span"), ("start", .ofNat span.start),
      ("end", .ofNat span.stop), ("replacement", .ofText replacement)]

end BlockEdit
