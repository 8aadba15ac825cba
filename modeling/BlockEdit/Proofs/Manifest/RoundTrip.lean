import BlockEdit.Manifest.Formats
import BlockEdit.Proofs.Edit.RoundTrip
import BlockEdit.Proofs.Store.Write
import BlockEdit.Store.Read

/-!
# Manifests that are written as JSON

Jobs and manifests are written as records with all of their fields, and read back from them
(`Job.ofJson?_toJson`, `Manifest.ofJson?_toJson`). With the round trip of JSON values, an edit and a
manifest are what is loaded from a file that holds them as JSON.
-/

namespace BlockEdit

open Config (naturalLimit readOr readRequired)

/-- The files of the path have the format. -/
def Path.HasFormat (path : Path) (format : Config.Format) : Prop :=
  Config.Format.ofExtension? (Text.lower (path.extension?.getD "")) = some format

instance (path : Path) (format : Config.Format) : Decidable (path.HasFormat format) :=
  inferInstanceAs (Decidable (_ = _))

/-- A text is read as `a`, and so is every file of the format that holds the text. -/
structure Config.Reader.Loads {α : Type} (reader : Config.Reader α) (format : Config.Format)
    (text : String) (a : α) : Prop where
  read : reader.read? format text = some a
  load : ∀ {s : Store} {path : Path}, path.HasFormat format → s.readText path = .ok text →
    s.load reader path = .ok a

theorem Config.Reader.Loads.of_read? {α : Type} {reader : Config.Reader α}
    {format : Config.Format} {text : String} {a : α} (h : reader.read? format text = some a) :
    reader.Loads format text a where
  read := h
  load := fun hformat htext => by
    rw [Path.HasFormat] at hformat
    unfold Store.load
    simp only [hformat, htext, h]

theorem FailurePolicy.ofJson?_toJson (policy : FailurePolicy) :
    FailurePolicy.ofJson? policy.toJson = some policy := by
  rw [FailurePolicy.ofJson?, FailurePolicy.toJson, Json.Value.choice?_ofText]
  cases policy <;> rfl

namespace Job

variable {job : Job}

theorem isLexical_toJson (job : Job) : job.toJson.IsLexical := by
  have hedits : (Json.Value.array (job.edits.map Edit.toJson)).IsLexical :=
    Json.isLexical_array (List.forall_mem_map.2 fun edit _ => edit.isLexical_toJson)
  exact Json.isLexical_ofEntries
    (List.forall_mem_cons.2 ⟨Json.isLexical_ofText job.path, List.forall_mem_singleton.2 hedits⟩)

theorem ofJson?_toJson (h : ∀ edit ∈ job.edits, edit.Fits) : ofJson? job.toJson = some job := by
  have hedits : (Json.Value.array (job.edits.map Edit.toJson)).items?
      (Edit.ofJson? (Json.depthLimit - Manifest.levelsAroundEdit)) = some job.edits :=
    Json.Value.items?_map fun edit hedit => Edit.ofJson?_toJson 121 (h edit hedit)
  rw [ofJson?, toJson, Json.Value.fields?_ofEntries (by decide) (by simp)]
  simp [List.lookup_cons, readRequired, hedits]

end Job

namespace Manifest

variable {manifest : Manifest}

/-- The numbers of all edits of the manifest fit 64 bits. -/
def Fits (manifest : Manifest) : Prop := ∀ job ∈ manifest.jobs, ∀ edit ∈ job.edits, edit.Fits

theorem isLexical_toJson (manifest : Manifest) : manifest.toJson.IsLexical := by
  have hjobs : (Json.Value.array (manifest.jobs.map Job.toJson)).IsLexical :=
    Json.isLexical_array (List.forall_mem_map.2 fun job _ => job.isLexical_toJson)
  exact Json.isLexical_ofEntries (List.forall_mem_cons.2
    ⟨Json.isLexical_ofText manifest.policy.word, List.forall_mem_singleton.2 hjobs⟩)

theorem ofJson?_toJson (h : manifest.Fits) : ofJson? manifest.toJson = some manifest := by
  have hjobs : (Json.Value.array (manifest.jobs.map Job.toJson)).items? Job.ofJson? =
      some manifest.jobs :=
    Json.Value.items?_map fun job hjob => Job.ofJson?_toJson (h job hjob)
  rw [ofJson?, toJson, Json.Value.fields?_ofEntries (by decide) (by simp)]
  simp [List.lookup_cons, readOr, FailurePolicy.ofJson?_toJson, hjobs]

theorem loads_of_isWritten (h : manifest.Fits) {text : String}
    (htext : manifest.toJson.IsWritten text) : reader.Loads .json text manifest := by
  refine .of_read? ?_
  rw [Config.Reader.read?, Json.parse?_of_isWritten manifest.isLexical_toJson htext,
    Option.bind_eq_bind, Option.bind_some, reader]
  exact ofJson?_toJson h

/-- Edits and manifests whose numbers fit 64 bits are what they are written as in JSON. -/
theorem loads_json_of_isWritten {edit : Edit} (hedit : edit.Fits) (hmanifest : manifest.Fits) :
    (∀ text, edit.toJson.IsWritten text → Edit.reader.Loads .json text edit) ∧
      ∀ text, manifest.toJson.IsWritten text → reader.Loads .json text manifest := by
  refine ⟨fun text htext => .of_read? ?_, fun text htext => loads_of_isWritten hmanifest htext⟩
  rw [Config.Reader.read?, Json.parse?_of_isWritten edit.isLexical_toJson htext]
  exact Edit.ofJson?_toJson 125 hedit

/-- A manifest with edits of all kinds, in which a text has to be escaped in each possible way, and
a single edit with the largest number. -/
theorem loads_json_of_isWritten_all_kinds :
    let insertion : Edit := .insert "\"\\\n\x01é" (naturalLimit - 1) .after "M"
    let manifest : Manifest := ⟨.keepGoing, [⟨"a.js", [insertion,
      .replaceBlock "<p" 0 ⟨"<p", "</p>"⟩ "", .replaceSpan ⟨3, 2⟩ "x"]⟩, ⟨"", []⟩]⟩
    insertion.Fits ∧ manifest.Fits ∧ Edit.reader.Loads .json insertion.toJson.write insertion ∧
      reader.Loads .json manifest.toJson.writePretty manifest := by
  intro insertion manifest
  have hinsertion : insertion.Fits := by decide
  have hmanifest : manifest.Fits := by
    unfold Fits
    decide
  obtain ⟨hedits, hmanifests⟩ := loads_json_of_isWritten hinsertion hmanifest
  exact ⟨hinsertion, hmanifest, hedits _ (Json.isWritten_write insertion.toJson),
    hmanifests _ (Json.isWritten_writePretty manifest.toJson)⟩

end Manifest

end BlockEdit
