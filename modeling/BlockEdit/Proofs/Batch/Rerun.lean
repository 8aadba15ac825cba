import BlockEdit.Proofs.Batch.Atomicity
import BlockEdit.Proofs.Edit.Idempotence
import BlockEdit.Proofs.Store.Course

/-!
# Editing a file a second time

An edit that has written a file leaves its own text there (`readText_of_editFile`), so what a second
run does is decided by what the edits make of their own result. If they leave it as it is, nothing
is written, and there is not even a lock (`editFile_of_fixed`). A block edit whose replacement is a
block behind its marker is of that kind: `replaceBlock_idempotent`.

This is for a first run that meets no link in the place of its temporary file. `rerun_not_idle` has
one there: the file is written, and afterwards it is a link that leads to itself.
-/

namespace BlockEdit

open Store

/-- The outcome for a file that the edits leave as it is. -/
structure FileOutcome.IsIdle (outcome : FileOutcome) : Prop where
  changed : outcome.changed = false
  written : outcome.written = false
  checksums : outcome.checksumBefore = outcome.checksumAfter

variable {s s' : Store} {options : EditOptions} {path : Path} {edits : List Edit}
  {text : String} {outcome : FileOutcome}

theorem Edit.applyAll_singleton_eq_ok_iff {edit : Edit} {out : String} :
    applyAll text [edit] = .ok out ↔ edit.apply text = .ok out := by
  rw [applyAll, applyFrom]
  cases edit.apply text <;> simp [applyFrom]

/-- Edits that leave the text of a file as it is change nothing in the store. -/
theorem editFile_of_fixed (options : EditOptions) (hread : s.readText path = .ok text)
    (hedits : Edit.applyAll text edits = .ok text) :
    s.editFile options path edits = (s, .ok (.ofTexts path options.dryRun text text)) ∧
      (FileOutcome.ofTexts path options.dryRun text text).IsIdle := by
  refine ⟨editFile_of_not_written hread hedits ?_, ?_, ?_, rfl⟩ <;> simp [FileOutcome.ofTexts]

/-- A file that was edited holds the text that the edits gave. -/
theorem readText_of_editFile (hs : s.IsTree) (htemporary : s.NoTemporaryLink options.process path)
    (hwrite : options.dryRun = false)
    (hedit : s.editFile options path edits = (s', .ok outcome)) :
    ∃ old new, s.readText path = .ok old ∧ Edit.applyAll old edits = .ok new ∧
      s'.readText path = .ok new ∧ outcome.checksumAfter = Checksum.ofText new := by
  have hedited := edited_editFile s options path edits
  rw [hedit] at hedited
  cases hedited with
  | @left old new hread hedits hleft =>
    obtain rfl : old = new := hleft.resolve_right (by simp [hwrite])
    exact ⟨old, old, hread, hedits, hread, rfl⟩
  | @written old new _ hread hedits hchanged hdry hresult =>
    exact ⟨old, new, hread, hedits, readText_of_write hs htemporary hread hresult, rfl⟩

/-- When the replacement of a block edit begins with the marker and is itself one whole block, and
its open token does not hold the close token, the edit changes nothing the second time. So a file
that holds its result, as it does after a first run that wrote, is left alone with all the store,
and the outcome says so. -/
theorem replaceBlock_idempotent {marker replacement : String} {occurrence : Nat}
    {tokens : TokenPair} (hopening : ¬tokens.closing.toList <:+: tokens.opening.toList)
    (hmarker : marker.toList <+: replacement.toList)
    (hblock : ∃ maxDepth, Block.locateEnd replacement 0 tokens =
      .ok ⟨replacement.utf8ByteSize, maxDepth⟩) :
    let edit := Edit.replaceBlock marker occurrence tokens replacement
    (∀ text out, edit.apply text = .ok out → edit.apply out = .ok out) ∧
    (∀ (s : Store) options path text out, edit.apply text = .ok out → s.readText path = .ok out →
      ∃ outcome, s.editFile options path [edit] = (s, .ok outcome) ∧ outcome.IsIdle) ∧
    ∀ (s s' : Store) options options' path outcome, s.IsTree →
      s.NoTemporaryLink options.process path → options.dryRun = false →
      s.editFile options path [edit] = (s', .ok outcome) →
        ∃ outcome', s'.editFile options' path [edit] = (s', .ok outcome') ∧ outcome'.IsIdle ∧
          outcome'.checksumBefore = outcome.checksumAfter := by
  obtain ⟨maxDepth, hblock⟩ := hblock
  intro edit
  have hagain : ∀ text out, edit.apply text = .ok out → edit.apply out = .ok out :=
    fun text out h => Edit.apply_replaceBlock_again hopening hmarker hblock h
  have hfixed : ∀ text out, edit.apply text = .ok out → Edit.applyAll out [edit] = .ok out :=
    fun text out h => Edit.applyAll_singleton_eq_ok_iff.2 (hagain text out h)
  refine ⟨hagain, fun s options path text out h hread => ?_,
    fun s s' options options' path outcome hs htemporary hwrite hedit => ?_⟩
  · exact ⟨_, editFile_of_fixed options hread (hfixed text out h)⟩
  · obtain ⟨old, new, -, hedits, hread, hsum⟩ := readText_of_editFile hs htemporary hwrite hedit
    have happly := Edit.applyAll_singleton_eq_ok_iff.1 hedits
    obtain ⟨hsecond, hidle⟩ := editFile_of_fixed options' hread (hfixed old new happly)
    exact ⟨_, hsecond, hidle, hsum.symm⟩

/-- The block `<b>z</b>` in the place of another one, twice, in a file. -/
theorem replaceBlock_idempotent_element :
    let tokens := TokenPair.element "b"
    let edit := Edit.replaceBlock "<b>" 1 tokens "<b>z</b>"
    let s : Store := (Store.root []).put ["a"] (.file ⟨"ü<b>x<b></b></b>".toUTF8, 0o600, false⟩)
    let after := s.editFile ⟨7, false⟩ ⟨"a"⟩ [edit]
    ¬tokens.closing.toList <:+: tokens.opening.toList ∧ "<b>".toList <+: "<b>z</b>".toList ∧
      edit.apply "ü<b>x<b></b></b>" = .ok "ü<b>z</b>" ∧ edit.apply "ü<b>z</b>" = .ok "ü<b>z</b>" ∧
      after.2.map (·.changed) = .ok true ∧
      ∃ outcome, after.1.editFile ⟨8, false⟩ ⟨"a"⟩ [edit] = (after.1, .ok outcome) ∧
        outcome.IsIdle := by
  intro tokens edit s after
  have hopening : ¬tokens.closing.toList <:+: tokens.opening.toList := by decide
  have hmarker : "<b>".toList <+: "<b>z</b>".toList := by decide
  have hblock : Block.locateEnd "<b>z</b>" 0 tokens = .ok ⟨"<b>z</b>".utf8ByteSize, 1⟩ := by
    decide +kernel
  have happly : edit.apply "ü<b>x<b></b></b>" = .ok "ü<b>z</b>" := by decide +kernel
  have hname : IsName "a" := by decide
  have hs : s.IsTree :=
    (isTree_root []).put (node?_nil _) hname (by decide) (fileOrNone_of_none rfl)
  have htemporary : s.NoTemporaryLink 7 ⟨"a"⟩ := fun l f hfind target => by
    have hfound : s.find? "a" = .ok (["a"], .file ⟨"ü<b>x<b></b></b>".toUTF8, 0o600, false⟩) := by
      decide +kernel
    obtain ⟨rfl, -⟩ : ["a"] = l ∧ _ := by simpa [hfound] using hfind
    have hnone : s.node? (temporaryOf 7 ["a"]) = none := by decide +kernel
    simp [hnone]
  have hchanged : after.2.map (·.changed) = .ok true := by decide +kernel
  obtain ⟨hagain, -, hrerun⟩ :=
    @replaceBlock_idempotent "<b>" "<b>z</b>" 1 tokens hopening hmarker ⟨1, hblock⟩
  refine ⟨hopening, hmarker, happly, hagain _ _ happly, hchanged, ?_⟩
  cases hafter : after with
  | mk s' result =>
    cases result with
    | error e => rw [hafter] at hchanged; cases hchanged
    | ok outcome =>
      obtain ⟨outcome', hsecond, hidle, -⟩ :=
        hrerun s s' ⟨7, false⟩ ⟨8, false⟩ ⟨"a"⟩ outcome hs htemporary rfl hafter
      exact ⟨outcome', hsecond, hidle⟩

/-- Two trees in which a second run is not idle. In the first one the temporary file of the process
is a link to the file: the new text is written through the link, which then takes the place of the
file and leads to itself, so that the second run cannot even read it. In the other one a directory
stands in the place of the lock file, and neither run can write. -/
theorem rerun_not_idle :
    let tokens := TokenPair.element "b"
    let edit := Edit.replaceBlock "<b>" 1 tokens "<b>z</b>"
    let options : EditOptions := ⟨7, false⟩
    let s : Store := (Store.root []).put ["a"] (.file ⟨"<b>x</b>".toUTF8, 0o600, false⟩)
    let linked := (s.put [".a.7.tmp"] (.link "a")).editFile options ⟨"a"⟩ [edit]
    let barred := (s.put ["a.lock"] .directory).editFile options ⟨"a"⟩ [edit]
    ¬tokens.closing.toList <:+: tokens.opening.toList ∧ "<b>".toList <+: "<b>z</b>".toList ∧
      Block.locateEnd "<b>z</b>" 0 tokens = .ok ⟨"<b>z</b>".utf8ByteSize, 1⟩ ∧
      edit.apply "<b>x</b>" = .ok "<b>z</b>" ∧
      linked.2.map (·.written) = .ok true ∧
      (linked.1.editFile options ⟨"a"⟩ [edit]).2 = .error (.store (.io "a" .tooManyLinks)) ∧
      (barred.1.editFile options ⟨"a"⟩ [edit]).2 = .error (.store (.io "/a.lock" .isDirectory)) := by
  intro tokens edit options s linked barred
  exact ⟨by decide, by decide, by decide +kernel, by decide +kernel, by decide +kernel,
    by decide +kernel, by decide +kernel⟩

end BlockEdit
