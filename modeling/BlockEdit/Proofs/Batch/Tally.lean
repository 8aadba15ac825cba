import BlockEdit.Proofs.Batch.Editing
import BlockEdit.Proofs.Diff.Counts

/-!
# What a summary counts

The summary of a difference can be read off its unified diff, line by line, and its two numbers
differ as the numbers of lines of the texts do. It is empty when the texts are the same, whatever
their lines end with, so the outcome of an edit has an empty summary just when it says that nothing
has changed. All this is collected in `summary_counts_marked_lines`.
-/

namespace BlockEdit

/-- The summary of a difference says how many lines of its unified diff are marked as inserted and
as deleted, for any path without a line ending. What it inserts more than it deletes is what the new
text has more lines than the old one, and it is empty when the texts are the same, and only then. So
an edit of a file has changed nothing just when its summary is empty. -/
theorem summary_counts_marked_lines :
    (∀ path old new : String, Diff.NoBreak path.toList →
      let summary := Diff.Summary.between old new
      let diff := Diff.unified path old new
      summary.inserted = Diff.markedLines '+' diff ∧
        summary.deleted = Diff.markedLines '-' diff ∧
        (summary.inserted : Int) - summary.deleted =
          (Diff.lines new).size - (Diff.lines old).size ∧
        (summary.isEmpty = true ↔ old = new)) ∧
    ∀ (s s' : Store) (options : EditOptions) (path : Path) (edits : List Edit)
      (outcome : FileOutcome), s.editFile options path edits = (s', .ok outcome) →
        (outcome.changed = false ↔ outcome.summary.isEmpty = true) := by
  refine ⟨fun path old new hpath => ?_, fun s s' options path edits outcome h => ?_⟩
  · obtain ⟨hinserted, hdeleted⟩ := Diff.Summary.between_eq_markedLines hpath old new
    have hsize := Diff.Summary.size_add_between old new
    exact ⟨hinserted, hdeleted, by omega, Diff.Summary.isEmpty_between_iff⟩
  · obtain ⟨old, new, -, -, rfl⟩ := exists_ofTexts_of_editFile h
    rw [FileOutcome.ofTexts, Diff.Summary.isEmpty_between_iff]
    exact bne_eq_false_iff_eq

/-- Lines that begin with marks, of which the last one gets an ending. -/
theorem summary_counts_marked_lines_last_ending :
    let old := "--a\nb"
    let new := "++a\nb\n"
    let diff := "--- a/a\n+++ b/a\n@@ -1,2 +1,2 @@\n" ++
      "---a\n-b\n\\ No newline at end of file\n+++a\n+b\n"
    let s := (Store.root []).put ["a"] (.file ⟨old.toUTF8, 0o600, false⟩)
    let edits : List Edit := [.replaceSpan ⟨0, 2⟩ "++", .insert "b" 1 .after "\n"]
    Diff.NoBreak "a".toList ∧ Diff.Summary.between old new = ⟨2, 2⟩ ∧
      Diff.unified "a" old new = diff ∧ Diff.markedLines '+' diff = 2 ∧
      Diff.markedLines '-' diff = 2 ∧
      ∃ s' outcome, s.editFile ⟨7, false⟩ ⟨"a"⟩ edits = (s', .ok outcome) ∧
        outcome.summary.isEmpty = false ∧ outcome.changed = true := by
  intro old new diff s edits
  have hpath : Diff.NoBreak "a".toList := ⟨by decide, by decide⟩
  have hsummary : Diff.Summary.between old new = ⟨2, 2⟩ := by decide +kernel
  have hdiff : Diff.unified "a" old new = diff := by decide +kernel
  have hedit : (s.editFile ⟨7, false⟩ ⟨"a"⟩ edits).2.map (·.summary.isEmpty) = .ok false := by
    decide +kernel
  obtain ⟨hinserted, hdeleted, -, -⟩ := summary_counts_marked_lines.1 "a" old new hpath
  rw [hsummary, hdiff] at hinserted hdeleted
  refine ⟨hpath, hsummary, hdiff, hinserted.symm, hdeleted.symm, ?_⟩
  cases hresult : s.editFile ⟨7, false⟩ ⟨"a"⟩ edits with
  | mk s' result =>
    rw [hresult] at hedit
    cases result with
    | error e => cases hedit
    | ok outcome =>
      have hempty : outcome.summary.isEmpty = false := Except.ok.inj hedit
      have hchanged := summary_counts_marked_lines.2 s s' ⟨7, false⟩ ⟨"a"⟩ edits outcome hresult
      rw [hempty] at hchanged
      refine ⟨s', outcome, rfl, hempty, ?_⟩
      simpa using hchanged

end BlockEdit
