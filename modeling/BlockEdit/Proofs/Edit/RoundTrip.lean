import BlockEdit.Edit.Encode
import BlockEdit.Edit.Formats
import BlockEdit.Proofs.Edit.Record
import BlockEdit.Proofs.Json.Record

/-!
# Edits that are written as JSON

An edit whose numbers fit 64 bits is read back from the JSON value that it is written as
(`ofJson?_toJson`). A record that names its kind is read by the fields of that kind
(`ofValue?_ofRecord`), and each kind of edit is written as such a record with all of its fields.
-/

namespace BlockEdit

open Config (readOr readRequired naturalLimit)
open Json (toConfig?_ofText toConfig?_ofNat toConfig?_ofEntries)

/-- The numbers of the edit fit 64 bits. -/
def Edit.Fits : Edit → Prop
  | .insert _ occurrence _ _ => occurrence < naturalLimit
  | .replaceBlock _ occurrence _ _ => occurrence < naturalLimit
  | .replaceSpan span _ => span.start < naturalLimit ∧ span.stop < naturalLimit

instance (edit : Edit) : Decidable edit.Fits := by
  cases edit <;> unfold Edit.Fits <;> infer_instance

theorem TokenPair.ofValue?_ofRecord (opening closing : String) :
    TokenPair.ofValue? (.ofRecord [("open", .text opening), ("close", .text closing)]) =
      some ⟨opening, closing⟩ := by
  rw [TokenPair.ofValue?, Config.fields?_ofRecord,
    Config.pick?_eq_lookup (by decide) (by simp)]
  rfl

theorem TokenPair.toConfig?_toJson (depth : Nat) (tokens : TokenPair) :
    Json.toConfig? (depth + 1) tokens.toJson =
      some (.ofRecord [("open", .text tokens.opening), ("close", .text tokens.closing)]) :=
  toConfig?_ofEntries (by simp [toConfig?_ofText])

theorem Placement.choice?_word (placement : Placement) :
    (Config.Value.text placement.word).choice? Placement.names = some placement := by
  cases placement <;> rfl

theorem TokenPair.isLexical_toJson (tokens : TokenPair) : tokens.toJson.IsLexical :=
  Json.isLexical_ofEntries (by simp [Json.isLexical_ofText])

namespace Edit

variable {kind : Kind} {word : String} {entries : List (String × Config.Value)} {depth : Nat}

/-- A record with different keys that names its kind is read by the fields of the kind. -/
theorem ofValue?_ofRecord (hkind : Kind.names.lookup word = some kind)
    (hkeys : (kindKey :: entries.map Prod.fst).Nodup) :
    ofValue? (.ofRecord ((kindKey, .text word) :: entries)) =
      ofFields? kind (kind.fields.map fun name => entries.lookup name) := by
  have hkeys : (((kindKey, Config.Value.text word) :: entries).map Prod.fst).Nodup := hkeys
  have hname : Config.valuesOf kindKey ((kindKey, .text word) :: entries) = [.text word] := by
    rw [Config.valuesOf_eq_lookup hkeys, List.lookup_cons_self, Option.toList_some]
  have hfields : Config.pick? kind.fields ((kindKey, .text word) :: entries) =
      some (kind.fields.map fun name => entries.lookup name) := by
    rw [Config.pick?_eq_lookup kind.nodup_fields hkeys]
    refine congrArg some (List.map_congr_left fun name hmem => ?_)
    have hne : (name == kindKey) = false := beq_eq_false_iff_ne.2 fun h =>
      kind.kindKey_not_mem_fields (h ▸ hmem)
    rw [List.lookup_cons, hne]
  rw [ofValue?_ofRecord_eq, hname]
  simp only [kind?, hkind, Option.bind_some, hfields]

theorem ofJson?_of_toConfig? {v : Json.Value}
    (hv : Json.toConfig? depth v = some (.ofRecord ((kindKey, .text word) :: entries)))
    (hkind : Kind.names.lookup word = some kind)
    (hkeys : (kindKey :: entries.map Prod.fst).Nodup) :
    ofJson? depth v = ofFields? kind (kind.fields.map fun name => entries.lookup name) := by
  rw [ofJson?, hv]
  exact ofValue?_ofRecord hkind hkeys

theorem isLexical_toJson (edit : Edit) : edit.toJson.IsLexical := by
  cases edit <;> refine Json.isLexical_ofEntries ?_ <;>
    simp [Json.isLexical_ofText, Json.isLexical_ofNat, TokenPair.isLexical_toJson]

/-- An edit is read back from the JSON value that it is written as, in which the tokens stand one
level deeper than the edit. -/
theorem ofJson?_toJson (depth : Nat) {edit : Edit} (h : edit.Fits) :
    ofJson? (depth + 2) edit.toJson = some edit := by
  cases edit with
  | insert marker occurrence placement content =>
    have hvalue :
        Json.toConfig? (depth + 2) (toJson (.insert marker occurrence placement content)) =
          some (.ofRecord [(kindKey, .text "insert"), ("marker", .text marker),
            ("occurrence", .natural occurrence), ("placement", .text placement.word),
            ("content", .text content)]) :=
      toConfig?_ofEntries (by simp [toConfig?_ofText, toConfig?_ofNat _ h, kindKey])
    rw [ofJson?_of_toConfig? hvalue rfl (by simp [kindKey])]
    simp [Kind.fields, List.lookup_cons, ofFields?, readRequired, readOr, Config.Value.text?,
      Config.Value.natural?, Placement.choice?_word]
  | replaceBlock marker occurrence tokens replacement =>
    have hvalue :
        Json.toConfig? (depth + 2) (toJson (.replaceBlock marker occurrence tokens replacement)) =
          some (.ofRecord [(kindKey, .text "replace-block"), ("marker", .text marker),
            ("occurrence", .natural occurrence),
            ("tokens", .ofRecord [("open", .text tokens.opening), ("close", .text tokens.closing)]),
            ("replacement", .text replacement)]) :=
      toConfig?_ofEntries (by
        simp [toConfig?_ofText, toConfig?_ofNat _ h, TokenPair.toConfig?_toJson, kindKey])
    rw [ofJson?_of_toConfig? hvalue rfl (by simp [kindKey])]
    simp [Kind.fields, List.lookup_cons, ofFields?, readRequired, readOr, Config.Value.text?,
      Config.Value.natural?, TokenPair.ofValue?_ofRecord]
  | replaceSpan span replacement =>
    have hvalue : Json.toConfig? (depth + 2) (toJson (.replaceSpan span replacement)) =
        some (.ofRecord [(kindKey, .text "replace-span"), ("start", .natural span.start),
          ("end", .natural span.stop), ("replacement", .text replacement)]) :=
      toConfig?_ofEntries (by
        simp [toConfig?_ofText, toConfig?_ofNat _ h.1, toConfig?_ofNat _ h.2, kindKey])
    rw [ofJson?_of_toConfig? hvalue rfl (by simp [kindKey])]
    simp [Kind.fields, List.lookup_cons, ofFields?, readRequired, Config.Value.text?,
      Config.Value.natural?]

end Edit

end BlockEdit
