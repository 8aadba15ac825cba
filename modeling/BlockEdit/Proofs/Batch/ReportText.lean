import BlockEdit.Batch.Json
import BlockEdit.CommandLine.Run
import BlockEdit.Proofs.Manifest.RoundTrip

/-!
# Reports that are written as JSON

A report whose numbers fit 64 bits is read back from the JSON value that it is written as, with an
outcome, an error and a difference where it has one and nowhere else (`BatchReport.ofJson?_toJson`).
Every report that is read has such numbers (`BatchReport.fits_of_ofJson?`). So what is printed for a
script is the report, and a report that has been read is the same after it is written and read once
more (`BatchReport.ofText?_printed`).
-/

namespace BlockEdit

open Config (readOr readRequired naturalLimit of_readRequired)
open CommandLine (Settings outputOfBatch)

/-! ### Fields that may be left out -/

section OptionalField

variable {α : Type} {name key : String} {write : α → Json.Value} {o : Option α}

/-- The keys of a record to which a field is added that may be left out. -/
theorem keys_append_optionalField {entries : List (String × Json.Value)} {names : List String}
    (h : (entries.map Prod.fst).Sublist names) :
    ((entries ++ optionalField name write o).map Prod.fst).Sublist (names ++ [name]) := by
  have hfield : ((optionalField name write o).map Prod.fst).Sublist [name] := by
    cases o with
    | none => exact List.nil_sublist _
    | some a => exact List.Sublist.refl _
  rw [List.map_append]
  exact h.append hfield

theorem lookup_optionalField_self : (optionalField name write o).lookup name = o.map write := by
  cases o <;> simp [optionalField]

theorem lookup_optionalField_of_ne (h : key ≠ name) :
    (optionalField name write o).lookup key = none := by
  cases o with
  | none => rfl
  | some a => rw [optionalField, List.lookup_cons, beq_eq_false_iff_ne.2 h, List.lookup_nil]

theorem isLexical_optionalField (h : ∀ a, (write a).IsLexical) :
    ∀ e ∈ optionalField name write o, e.2.IsLexical := by
  cases o with
  | none => nofun
  | some a => exact List.forall_mem_singleton.2 (h a)

/-- A field that may be left out is read as absent exactly where it is. -/
theorem readOr_optionalField {read : Json.Value → Option α}
    (h : ∀ a ∈ o, (write a).nullOr? read = some (some a)) :
    readOr none (Json.Value.nullOr? read) (o.map write) = some o := by
  cases o with
  | none => rfl
  | some a => exact h a rfl

end OptionalField

/-! ### Summaries -/

namespace Diff.Summary

variable {summary : Diff.Summary}

/-- The numbers of the summary fit 64 bits. -/
def Fits (summary : Diff.Summary) : Prop :=
  summary.inserted < naturalLimit ∧ summary.deleted < naturalLimit

instance (summary : Diff.Summary) : Decidable summary.Fits := inferInstanceAs (Decidable (_ ∧ _))

theorem isLexical_toJson (summary : Diff.Summary) : summary.toJson.IsLexical :=
  Json.isLexical_ofEntries (by simp [Json.isLexical_ofNat])

theorem ofJson?_toJson (h : summary.Fits) : ofJson? summary.toJson = some summary := by
  rw [ofJson?, toJson, Json.Value.fields?_ofEntries (by decide) (by simp)]
  simp [List.lookup_cons, readRequired, Json.Value.natural?_ofNat h.1,
    Json.Value.natural?_ofNat h.2]

theorem fits_of_ofJson? {v : Json.Value} (h : ofJson? v = some summary) : summary.Fits := by
  rw [ofJson?] at h
  obtain ⟨fields, -, h⟩ := Option.bind_eq_some_iff.1 h
  split at h
  · simp only [Option.bind_eq_bind, Option.bind_eq_some_iff] at h
    obtain ⟨inserted, hinserted, deleted, hdeleted, h⟩ := h
    obtain rfl := Option.some.inj h
    exact ⟨of_readRequired (fun _ _ => Json.Value.lt_of_natural?) hinserted,
      of_readRequired (fun _ _ => Json.Value.lt_of_natural?) hdeleted⟩
  · cases h

end Diff.Summary

/-! ### Outcomes -/

namespace FileOutcome

variable {outcome : FileOutcome}

theorem isLexical_toJson (outcome : FileOutcome) : outcome.toJson.IsLexical := by
  refine Json.isLexical_ofEntries (List.forall_mem_append.2
    ⟨?_, isLexical_optionalField Json.isLexical_ofText⟩)
  simp [Json.isLexical_ofText, Json.isLexical_bool, Diff.Summary.isLexical_toJson]

theorem ofJson?_toJson (h : outcome.summary.Fits) : ofJson? outcome.toJson = some outcome := by
  have hdiff : readOr none (Json.Value.nullOr? Json.Value.text?)
      (outcome.diff.map .ofText) = some outcome.diff := readOr_optionalField (by simp)
  rw [ofJson?, toJson, Json.Value.fields?_ofEntries (by decide)
    ((keys_append_optionalField (List.Sublist.refl _)).nodup (by simp))]
  simp [List.lookup_cons, lookup_optionalField_self, readRequired, Json.Value.bool?, hdiff,
    Diff.Summary.ofJson?_toJson h]

theorem fits_of_ofJson? {v : Json.Value} (h : ofJson? v = some outcome) : outcome.summary.Fits := by
  rw [ofJson?] at h
  obtain ⟨fields, -, h⟩ := Option.bind_eq_some_iff.1 h
  split at h
  · simp only [Option.bind_eq_bind, Option.bind_eq_some_iff] at h
    obtain ⟨_, -, _, -, _, -, _, -, _, -, summary, hsummary, _, -, h⟩ := h
    obtain rfl := Option.some.inj h
    exact of_readRequired (fun _ _ => Diff.Summary.fits_of_ofJson?) hsummary
  · cases h

end FileOutcome

/-! ### Entries for jobs -/

theorem JobStatus.lookup_word (status : JobStatus) : names.lookup status.word = some status := by
  cases status <;> rfl

namespace JobReport

variable {report : JobReport}

/-- The numbers of the entry fit 64 bits. -/
def Fits (report : JobReport) : Prop :=
  report.job < naturalLimit ∧ ∀ outcome ∈ report.outcome, outcome.summary.Fits

instance (report : JobReport) : Decidable report.Fits := inferInstanceAs (Decidable (_ ∧ _))

theorem isLexical_toJson (report : JobReport) : report.toJson.IsLexical := by
  refine Json.isLexical_ofEntries (List.forall_mem_append.2 ⟨List.forall_mem_append.2
    ⟨?_, isLexical_optionalField FileOutcome.isLexical_toJson⟩,
    isLexical_optionalField Json.isLexical_ofText⟩)
  simp [Json.isLexical_ofText, Json.isLexical_ofNat]

theorem ofJson?_toJson (h : report.Fits) : ofJson? report.toJson = some report := by
  have houtcome : readOr none (Json.Value.nullOr? FileOutcome.ofJson?)
      (report.outcome.map FileOutcome.toJson) = some report.outcome :=
    readOr_optionalField fun outcome houtcome => by
      rw [FileOutcome.toJson, Json.Value.nullOr?_ofEntries, ← FileOutcome.toJson,
        FileOutcome.ofJson?_toJson (h.2 outcome houtcome), Option.map_some]
  have herror : readOr none (Json.Value.nullOr? Json.Value.text?)
      (report.error.map .ofText) = some report.error := readOr_optionalField (by simp)
  rw [ofJson?, toJson, Json.Value.fields?_ofEntries (by decide)
    ((keys_append_optionalField (keys_append_optionalField (List.Sublist.refl _))).nodup (by simp))]
  simp [List.lookup_cons, List.lookup_append, lookup_optionalField_self,
    lookup_optionalField_of_ne, readRequired, Json.Value.natural?_ofNat h.1, JobStatus.lookup_word,
    houtcome, herror]

theorem fits_of_ofJson? {v : Json.Value} (h : ofJson? v = some report) : report.Fits := by
  rw [ofJson?] at h
  obtain ⟨fields, -, h⟩ := Option.bind_eq_some_iff.1 h
  split at h
  · simp only [Option.bind_eq_bind, Option.bind_eq_some_iff] at h
    obtain ⟨job, hjob, _, -, _, -, outcome, houtcome, _, -, h⟩ := h
    obtain rfl := Option.some.inj h
    exact ⟨of_readRequired (fun _ _ => Json.Value.lt_of_natural?) hjob,
      Json.Value.forall_of_readOr (fun _ _ => FileOutcome.fits_of_ofJson?) houtcome⟩
  · cases h

end JobReport

/-! ### Reports -/

namespace BatchReport

variable {report : BatchReport}

/-- The numbers of all entries of the report fit 64 bits. -/
def Fits (report : BatchReport) : Prop := ∀ job ∈ report.jobs, job.Fits

instance (report : BatchReport) : Decidable report.Fits := inferInstanceAs (Decidable (∀ _ ∈ _, _))

/-- The report that a JSON text stands for. -/
def ofText? (text : String) : Option BatchReport := (Json.parse? text).bind ofJson?

theorem isLexical_toJson (report : BatchReport) : report.toJson.IsLexical := by
  have hjobs : (Json.Value.array (report.jobs.map JobReport.toJson)).IsLexical :=
    Json.isLexical_array (List.forall_mem_map.2 fun job _ => job.isLexical_toJson)
  refine Json.isLexical_ofEntries ?_
  simp [Json.isLexical_bool, hjobs, FailurePolicy.toJson, Json.isLexical_ofText]

theorem ofJson?_toJson (h : report.Fits) : ofJson? report.toJson = some report := by
  have hjobs : (Json.Value.array (report.jobs.map JobReport.toJson)).items? JobReport.ofJson? =
      some report.jobs :=
    Json.Value.items?_map fun job hjob => JobReport.ofJson?_toJson (h job hjob)
  rw [ofJson?, toJson, Json.Value.fields?_ofEntries (by decide) (by simp)]
  simp [List.lookup_cons, readRequired, Json.Value.bool?, FailurePolicy.ofJson?_toJson, hjobs]

theorem fits_of_ofJson? {v : Json.Value} (h : ofJson? v = some report) : report.Fits := by
  rw [ofJson?] at h
  obtain ⟨fields, -, h⟩ := Option.bind_eq_some_iff.1 h
  split at h
  · simp only [Option.bind_eq_bind, Option.bind_eq_some_iff] at h
    obtain ⟨_, -, _, -, _, -, jobs, hjobs, h⟩ := h
    obtain rfl := Option.some.inj h
    exact of_readRequired (fun _ _ => Json.Value.forall_of_items?
      fun _ _ => JobReport.fits_of_ofJson?) hjobs
  · cases h

theorem ofText?_of_isWritten (h : report.Fits) {text : String}
    (htext : report.toJson.IsWritten text) : ofText? text = some report := by
  rw [ofText?, Json.parse?_of_isWritten report.isLexical_toJson htext, Option.bind_some,
    ofJson?_toJson h]

/-- The text that is printed for a report stands for the report. Whatever text a report has been
read from, and however it is written then, it is read again, with the same counts and failures. -/
theorem ofText?_printed (settings : Settings) :
    (∀ report : BatchReport, report.Fits →
      ofText? (outputOfBatch settings true (.ok report)).stdout = some report) ∧
    ∀ (text : String) (report : BatchReport), ofText? text = some report →
      ∀ written, report.toJson.IsWritten written →
        ofText? written = some report ∧ ∀ again, ofText? written = some again →
          again.count = report.count ∧ again.failures = report.failures := by
  refine ⟨fun report h => ?_, fun text report htext written hwritten => ?_⟩
  · have hstdout : (outputOfBatch settings true (.ok report)).stdout =
        report.toJson.writePretty ++ "\n" := by
      rw [outputOfBatch, if_pos rfl]
      cases report.success <;> rfl
    rw [hstdout]
    exact ofText?_of_isWritten h (Json.isWritten_line report.toJson)
  · obtain ⟨v, -, hv⟩ := Option.bind_eq_some_iff.1 htext
    have hreport := ofText?_of_isWritten (fits_of_ofJson? hv) hwritten
    refine ⟨hreport, fun again hagain => ?_⟩
    obtain rfl : report = again := Option.some.inj (hreport.symm.trans hagain)
    exact ⟨rfl, rfl⟩

/-- A report with an entry that has a difference but no error, one that has an error but no outcome,
and one that has neither; and a report that is read from an array. -/
theorem ofText?_printed_each_kind :
    let outcome : FileOutcome :=
      ⟨"a.js", true, false, "0", "1", ⟨naturalLimit - 1, 0⟩, some "+\"\\\n\x01"⟩
    let report : BatchReport := ⟨false, true, .failFast,
      [⟨1, "a.js", .applied, some outcome, none⟩, ⟨2, "", .failed, none, some "b: \"é\""⟩,
        ⟨3, "c", .skipped, none, none⟩]⟩
    let empty : BatchReport := ⟨true, false, .keepGoing, []⟩
    report.Fits ∧ ofText? (outputOfBatch ⟨1, false⟩ true (.ok report)).stdout = some report ∧
      ofText? "[true,false,\"keep-going\",[]]" = some empty ∧
        ofText? empty.toJson.write = some empty := by
  intro outcome report empty
  have hreport : report.Fits := by decide
  have hempty : ofText? "[true,false,\"keep-going\",[]]" = some empty := by decide +kernel
  obtain ⟨hprinted, hread⟩ := ofText?_printed ⟨1, false⟩
  exact ⟨hreport, hprinted report hreport, hempty,
    (hread _ empty hempty _ (Json.isWritten_write empty.toJson)).1⟩

end BatchReport

end BlockEdit
