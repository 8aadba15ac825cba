import BlockEdit.Proofs.Batch.Rerun
import BlockEdit.Proofs.Diff.Spans

/-!
# What a unified diff says

A unified diff makes the new text out of the old one (`Diff.patch_unified`), it is empty when there
is no difference, and its hunks show stretches of both texts, one behind another. So the diff that a
dry run shows makes the text of the file into the one that the real run leaves there. These are
collected in `unified_faithful`.

The header of a hunk is not always that of the lines it shows: `header_of_moved_insertion` is a hunk
of five old lines whose header says that there are four. The compaction moves an insertion past
deletions without telling it that its place in the old text is another one.
-/

namespace BlockEdit

open Store

variable {s s' : Store} {options : EditOptions} {path : Path} {edits : List Edit}
  {outcome : FileOutcome}

/-- A dry run shows the difference that its edits make, and leaves the store alone. -/
theorem diff_of_dryRun (hdry : options.dryRun = true)
    (h : s.editFile options path edits = (s', .ok outcome)) :
    ∃ old new, s.readText path = .ok old ∧ Edit.applyAll old edits = .ok new ∧ s' = s ∧
      outcome.diff.getD "" = Diff.unified path.text old new := by
  have hedited := edited_editFile s options path edits
  rw [h] at hedited
  cases hedited with
  | @left old new hread hedits _ =>
    refine ⟨old, new, hread, hedits, rfl, ?_⟩
    by_cases heq : old = new
    · rw [(Diff.unified_eq_empty_iff path.text old new).2 heq]
      simp [FileOutcome.ofTexts, heq]
    · simp [FileOutcome.ofTexts, hdry, heq]
  | written _ _ _ hreal => simp [hdry] at hreal

/-- The unified diff of two texts of a file, whose path has no line ending, makes the new text out
of the old one, so that texts with the same diff against an old one are the same. It is empty when
the texts are the same, and only then. Its lines behind those that name the file are the lines of
hunks, which show stretches of both texts in the order of the texts, as `Diff.Hunk.Shows` says. The
diff of a dry run makes the text of the file into what a real run leaves there. -/
theorem unified_faithful (hpath : Diff.NoBreak path.text.toList) :
    (∀ old new, Diff.patch old (Diff.unified path.text old new) = new) ∧
    (∀ old new new', Diff.unified path.text old new = Diff.unified path.text old new' →
      new = new') ∧
    (∀ old new, Diff.unified path.text old new = "" ↔ old = new) ∧
    (∀ old new, let p := Diff.Pair.ofTexts old new
      (Diff.splitFrom [] (Diff.unified path.text old new).toList).drop 2 =
          (Diff.hunks p.segments).flatMap (Diff.Hunk.shown p) ∧
        ∃ spans : List (Diff.Place × Diff.Place),
          List.Forall₂ (Diff.Hunk.Shows p) (Diff.hunks p.segments) spans ∧
          spans.Pairwise fun span span' => span.2 ≤ span'.1) ∧
    ∀ (s s₁ s₂ : Store) options options' edits dry real, s.IsTree →
      s.NoTemporaryLink options.process path → options.dryRun = false → options'.dryRun = true →
      s.editFile options' path edits = (s₁, .ok dry) →
      s.editFile options path edits = (s₂, .ok real) →
        ∃ old new, s.readText path = .ok old ∧ s₂.readText path = .ok new ∧ s₁ = s ∧
          Diff.patch old (dry.diff.getD "") = new := by
  refine ⟨Diff.patch_unified hpath, fun old new new' h => ?_,
    Diff.unified_eq_empty_iff path.text, fun old new => ?_,
    fun s s₁ s₂ options options' edits dry real hs htemporary hreal hdry hforeseen hdone => ?_⟩
  · rw [← Diff.patch_unified hpath old new, h, Diff.patch_unified hpath]
  · intro p
    obtain ⟨e, htiles, hskips⟩ := Diff.exists_tiles_hunks p
    obtain ⟨spans, hspans, hordered, -⟩ := Diff.exists_spans htiles hskips.le
    exact ⟨Diff.lines_unified old new path.text hpath, spans, hspans, hordered⟩
  · obtain ⟨old, new, hread, hedits, hsame, hdiff⟩ := diff_of_dryRun hdry hforeseen
    obtain ⟨old', new', hread', hedits', hafter, -⟩ :=
      readText_of_editFile hs htemporary hreal hdone
    obtain rfl : old = old' := Except.ok.inj (hread.symm.trans hread')
    obtain rfl : new = new' := Except.ok.inj (hedits.symm.trans hedits')
    exact ⟨old, new, hread, hafter, hsame, by rw [hdiff, Diff.patch_unified hpath]⟩

/-- A line with a carriage return in front of a last line without an ending, in a file. -/
theorem unified_faithful_inserted_line :
    let s := (Store.root []).put ["a"] (.file ⟨"a\nb".toUTF8, 0o600, false⟩)
    let edits : List Edit := [.insertBefore "b" "x\r"]
    let dry := s.editFile ⟨7, true⟩ ⟨"a"⟩ edits
    let real := s.editFile ⟨8, false⟩ ⟨"a"⟩ edits
    let diff := "--- a/a\n+++ b/a\n@@ -1,2 +1,3 @@\n a\n+x\r b\n\\ No newline at end of file\n"
    Diff.NoBreak "a".toList ∧ s.IsTree ∧ s.NoTemporaryLink 8 ⟨"a"⟩ ∧
      dry.2.map (·.diff) = .ok (some diff) ∧ real.1.readText ⟨"a"⟩ = .ok "a\nx\rb" ∧
      Diff.patch "a\nb" diff = "a\nx\rb" := by
  intro s edits dry real diff
  have hpath : Diff.NoBreak (⟨"a"⟩ : Path).text.toList := ⟨by decide, by decide⟩
  have hname : IsName "a" := by decide
  have hs : s.IsTree :=
    (isTree_root []).put (node?_nil _) hname (by decide) (fileOrNone_of_none rfl)
  have htemporary : s.NoTemporaryLink 8 ⟨"a"⟩ := fun l f hfind target => by
    have hfound : s.find? "a" = .ok (["a"], .file ⟨"a\nb".toUTF8, 0o600, false⟩) := by
      decide +kernel
    obtain ⟨rfl, -⟩ : ["a"] = l ∧ _ := by simpa [hfound] using hfind
    have hnone : s.node? (temporaryOf 8 ["a"]) = none := by decide +kernel
    simp [hnone]
  have hread : s.readText ⟨"a"⟩ = .ok "a\nb" := by decide +kernel
  have hshown : dry.2.map (·.diff) = .ok (some diff) := by decide +kernel
  have hwritten : real.2.map (·.written) = .ok true := by decide +kernel
  have hafter : real.1.readText ⟨"a"⟩ = .ok "a\nx\rb" := by decide +kernel
  refine ⟨hpath, hs, htemporary, hshown, hafter, ?_⟩
  cases hdry : dry with
  | mk s₁ foreseen =>
    cases hreal : real with
    | mk s₂ done =>
      rw [hdry] at hshown
      rw [hreal] at hwritten hafter
      cases foreseen with
      | error e => cases hshown
      | ok outcome =>
        cases done with
        | error e => cases hwritten
        | ok outcome' =>
          obtain ⟨old, new, hold, hnew, -, hpatch⟩ := (unified_faithful hpath).2.2.2.2 s s₁ s₂
            ⟨8, false⟩ ⟨7, true⟩ edits outcome outcome' hs htemporary rfl rfl hdry hreal
          obtain rfl : "a\nb" = old := Except.ok.inj (hread.symm.trans hold)
          obtain rfl : "a\nx\rb" = new := Except.ok.inj (hafter.symm.trans hnew)
          have hdiff : outcome.diff = some diff := Except.ok.inj hshown
          rwa [hdiff] at hpatch

/-- The header of a hunk that ends with an insertion, which was found in front of a line that is
deleted: there are five old lines, and it says that there are four. -/
theorem header_of_moved_insertion :
    let old := "c\na\nb\nc\na\n"
    let new := "b\na\nb\na\nb\na\na\nb\nc\r\n"
    let diff := Diff.unified "src/a.js" old new
    diff = "--- a/src/a.js\n+++ b/src/a.js\n@@ -1,4 +1,9 @@\n" ++
        "-c\n+b\n+a\n+b\n a\n b\n-c\n a\n+a\n+b\n+c\r\n" ∧
      Diff.shownLines '-' ((Diff.splitFrom [] diff.toList).drop 2) =
        ["c\n", "a\n", "b\n", "c\n", "a\n"] ∧
      Diff.rangeText 0 5 = "1,5" := by
  decide +kernel

end BlockEdit
