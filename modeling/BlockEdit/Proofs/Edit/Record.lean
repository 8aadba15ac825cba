import BlockEdit.Edit.Decode
import BlockEdit.Proofs.Config.Record

/-!
# Edits as records

Where the keys of a table are texts, the edit that it stands for depends on what is written for the
key of the kind and for the fields of that kind, and on nothing else (`ofValue?_ofRecord_eq`). So a
record stands for an edit just when it writes it (`Writes`): its kind once, each field of that kind
at most once, and nothing that is read otherwise (`ofValue?_ofRecord_iff`).
-/

namespace BlockEdit.Edit

open Config (Value valuesOf pick? textKeys)

variable {entries : List (String × Value)} {edit edit' : Edit}

theorem Kind.nodup_fields (kind : Kind) : kind.fields.Nodup := by cases kind <;> decide

theorem Kind.kindKey_not_mem_fields (kind : Kind) : kindKey ∉ kind.fields := by
  cases kind <;> decide

/-! ### The kind of a record -/

theorem filter_isKindEntry (entries : List (String × Value)) :
    (textKeys entries).filter isKindEntry = textKeys (entries.filter (·.1 = kindKey)) := by
  rw [textKeys, List.filter_map]
  rfl

theorem filter_not_isKindEntry (entries : List (String × Value)) :
    (textKeys entries).filter (!isKindEntry ·) = textKeys (entries.filter (·.1 ≠ kindKey)) := by
  rw [textKeys, List.filter_map]
  congr 2
  funext e
  by_cases h : e.1 = kindKey <;> simp [isKindEntry, h]

/-- The entries of a key are still there when those of another key are left out. -/
theorem valuesOf_filter_ne {key other : String} (h : key ≠ other) :
    valuesOf key (entries.filter (·.1 ≠ other)) = valuesOf key entries := by
  rw [valuesOf, List.filter_filter, valuesOf]
  congr 2
  funext e
  by_cases he : e.1 = key
  · simp [he, h]
  · simp [he]

/-- A record is read by the fields of the kind that it names. -/
theorem ofValue?_ofRecord_eq (entries : List (String × Value)) :
    ofValue? (.ofRecord entries) =
      match valuesOf kindKey entries with
      | [name] => (kind? name).bind fun kind => (pick? kind.fields entries).bind (ofFields? kind)
      | _ => none := by
  have hrest : ∀ kind : Kind,
      (Value.table (textKeys (entries.filter (·.1 ≠ kindKey)))).fields? kind.fields =
        pick? kind.fields entries := fun kind => by
    rw [← Value.ofRecord, Config.fields?_ofRecord]
    refine Config.pick?_congr kind.nodup_fields fun name hname => valuesOf_filter_ne ?_
    rintro rfl
    exact kind.kindKey_not_mem_fields hname
  rw [Value.ofRecord, ofValue?, filter_isKindEntry, filter_not_isKindEntry, valuesOf]
  generalize List.filter (fun e => decide (e.1 = kindKey)) entries = kinds
  obtain _ | ⟨e, _ | ⟨e', es⟩⟩ := kinds
  · rfl
  · simp only [hrest]
    rfl
  · rfl

/-! ### What an edit is written as -/

/-- The kind of an edit. -/
def kind : Edit → Kind
  | insert .. => .insert
  | replaceBlock .. => .replaceBlock
  | replaceSpan .. => .replaceSpan

theorem kind_of_ofFields? {kind : Kind} {fields : List (Option Value)}
    (h : ofFields? kind fields = some edit) : edit.kind = kind := by
  unfold ofFields? at h
  split at h
  · simp only [Option.bind_eq_bind, Option.bind_eq_some_iff] at h
    obtain ⟨_, -, _, -, _, -, _, -, h⟩ := h
    rw [← Option.some.inj h, kind]
  · simp only [Option.bind_eq_bind, Option.bind_eq_some_iff] at h
    obtain ⟨_, -, _, -, _, -, _, -, h⟩ := h
    rw [← Option.some.inj h, kind]
  · simp only [Option.bind_eq_bind, Option.bind_eq_some_iff] at h
    obtain ⟨_, -, _, -, _, -, h⟩ := h
    rw [← Option.some.inj h, kind]
  · cases h

/-- What is written for each key is an edit. -/
structure Writes (written : String → List Value) (edit : Edit) : Prop where
  kind : ∃ name, written kindKey = [name] ∧ kind? name = some edit.kind
  once : ∀ field ∈ edit.kind.fields, (written field).length ≤ 1
  fields : ofFields? edit.kind (edit.kind.fields.map fun field => (written field).head?) = some edit

/-- A record stands for the edit that it writes. -/
theorem ofValue?_ofRecord_iff :
    ofValue? (.ofRecord entries) = some edit ↔ Writes (valuesOf · entries) edit := by
  rw [ofValue?_ofRecord_eq]
  constructor
  · intro h
    split at h
    · next name hname =>
      obtain ⟨kind, hkind, h⟩ := Option.bind_eq_some_iff.1 h
      obtain ⟨fields, hfields, h⟩ := Option.bind_eq_some_iff.1 h
      rw [Config.pick?_eq kind.nodup_fields] at hfields
      split at hfields
      · next honce =>
        obtain rfl := Option.some.inj hfields
        obtain rfl := kind_of_ofFields? h
        exact ⟨⟨name, hname, hkind⟩, honce, h⟩
      · cases hfields
    · cases h
  · rintro ⟨⟨name, hname, hkind⟩, honce, hfields⟩
    have hpick := (Config.pick?_eq edit.kind.nodup_fields).trans (if_pos honce)
    rw [hname]
    simp only [hkind, Option.bind_some, hpick, hfields]

end BlockEdit.Edit
