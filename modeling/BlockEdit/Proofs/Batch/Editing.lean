import BlockEdit.Batch.Outcome
import BlockEdit.Proofs.Store.Course

/-!
# The ways in which an edit of a file can go

`Edited` lists what `Store.editFile` can come to (`edited_editFile`): the file cannot be read or
edited (`Refuses`), nothing is written, or the file is written, which may fail. The proofs about
edits of files are by these cases. In each of them only files have changed, at the places of a
writer (`Edited.alters`).
-/

namespace BlockEdit

open Store

section

variable (s : Store) (options : EditOptions) (path : Path) (edits : List Edit)

/-- The file cannot be read, or an edit cannot be carried out. -/
inductive Refuses : BatchError → Prop
  | read {e} (hread : s.readText path = .error e) : Refuses (.store e)
  | edit {old failure} (hread : s.readText path = .ok old)
      (hedits : Edit.applyAll old edits = .error failure) : Refuses (.edit path failure)

/-- The store after an edit of a file, and its result. -/
inductive Edited : Store → Except BatchError FileOutcome → Prop
  | refused {e} (h : Refuses s path edits e) : Edited s (.error e)
  | left {old new} (hread : s.readText path = .ok old)
      (hedits : Edit.applyAll old edits = .ok new) (hleft : old = new ∨ options.dryRun = true) :
      Edited s (.ok (.ofTexts path options.dryRun old new))
  | unwritten {old new s' e} (hread : s.readText path = .ok old)
      (hedits : Edit.applyAll old edits = .ok new) (hchanged : old ≠ new)
      (hdry : options.dryRun = false)
      (hwrite : s.write options.process path new.toUTF8 = (s', .error e)) :
      Edited s' (.error (.store e))
  | written {old new s'} (hread : s.readText path = .ok old)
      (hedits : Edit.applyAll old edits = .ok new) (hchanged : old ≠ new)
      (hdry : options.dryRun = false)
      (hwrite : s.write options.process path new.toUTF8 = (s', .ok ())) :
      Edited s' (.ok (.ofTexts path options.dryRun old new))

end

variable {s s' : Store} {options : EditOptions} {path : Path} {edits : List Edit} {e : BatchError}
  {result : Except BatchError FileOutcome} {l : Location} {f : File}

/-- A file is refused alike in two stores where the same text is read. -/
theorem Refuses.congr {t : Store} (hread : t.readText path = s.readText path)
    (h : Refuses s path edits e) : Refuses t path edits e := by
  cases h with
  | read h => exact .read (hread.trans h)
  | edit h hedits => exact .edit (hread.trans h) hedits

theorem editFile_of_refuses (h : Refuses s path edits e) :
    s.editFile options path edits = (s, .error e) := by
  cases h with
  | read hread => rw [editFile, hread]
  | edit hread hedits => simp only [editFile, hread, hedits]

theorem written_ofTexts {dryRun : Bool} {old new : String} :
    (FileOutcome.ofTexts path dryRun old new).written = true ↔ old ≠ new ∧ dryRun = false := by
  simp [FileOutcome.ofTexts]

section Branches

variable {old new : String} (hread : s.readText path = .ok old)
  (hedits : Edit.applyAll old edits = .ok new)

include hread hedits

theorem editFile_of_not_written
    (h : (FileOutcome.ofTexts path options.dryRun old new).written = false) :
    s.editFile options path edits = (s, .ok (.ofTexts path options.dryRun old new)) := by
  simp only [editFile, hread, hedits, h, Bool.false_eq_true, if_false]

theorem editFile_of_written
    (h : (FileOutcome.ofTexts path options.dryRun old new).written = true) :
    s.editFile options path edits =
      match s.write options.process path new.toUTF8 with
      | (s', .error e) => (s', .error (.store e))
      | (s', .ok ()) => (s', .ok (.ofTexts path options.dryRun old new)) := by
  cases hwrite : s.write options.process path new.toUTF8 with
  | mk s' result => cases result <;> simp only [editFile, hread, hedits, h, if_true, hwrite]

end Branches

/-- A file is refused, or its text and what the edits make of it are known. -/
theorem refuses_or_prepared (s : Store) (path : Path) (edits : List Edit) :
    (∃ e, Refuses s path edits e) ∨
      ∃ old new, s.readText path = .ok old ∧ Edit.applyAll old edits = .ok new := by
  cases hread : s.readText path with
  | error e => exact .inl ⟨_, .read hread⟩
  | ok old =>
    cases hedits : Edit.applyAll old edits with
    | error failure => exact .inl ⟨_, .edit hread hedits⟩
    | ok new => exact .inr ⟨old, new, rfl, hedits⟩

theorem edited_editFile (s : Store) (options : EditOptions) (path : Path) (edits : List Edit) :
    Edited s options path edits (s.editFile options path edits).1
      (s.editFile options path edits).2 := by
  obtain ⟨e, h⟩ | ⟨old, new, hread, hedits⟩ := refuses_or_prepared s path edits
  · rw [editFile_of_refuses h]
    exact .refused h
  by_cases hwritten : (FileOutcome.ofTexts path options.dryRun old new).written = true
  · rw [editFile_of_written hread hedits hwritten]
    obtain ⟨hchanged, hdry⟩ := written_ofTexts.1 hwritten
    cases hwrite : s.write options.process path new.toUTF8 with
    | mk s' result =>
      cases result with
      | error e => exact .unwritten hread hedits hchanged hdry hwrite
      | ok _ => exact .written hread hedits hchanged hdry hwrite
  · rw [editFile_of_not_written hread hedits (Bool.eq_false_iff.2 hwritten)]
    refine .left hread hedits ?_
    rw [written_ofTexts, not_and_or, not_not, Bool.not_eq_false] at hwritten
    exact hwritten

/-- An edit that succeeds tells what became of the text. -/
theorem exists_ofTexts_of_editFile {outcome : FileOutcome}
    (h : s.editFile options path edits = (s', .ok outcome)) :
    ∃ old new, s.readText path = .ok old ∧ Edit.applyAll old edits = .ok new ∧
      outcome = .ofTexts path options.dryRun old new := by
  have hedited := edited_editFile s options path edits
  rw [h] at hedited
  cases hedited with
  | left hread hedits => exact ⟨_, _, hread, hedits, rfl⟩
  | written hread hedits => exact ⟨_, _, hread, hedits, rfl⟩

/-- An edit that fails in a change has read the text. -/
theorem exists_applyAll_of_editFile {failure : EditFailure}
    (h : s.editFile options path edits = (s', .error (.edit path failure))) :
    ∃ old, s.readText path = .ok old ∧ Edit.applyAll old edits = .error failure := by
  have hedited := edited_editFile s options path edits
  rw [h] at hedited
  cases hedited with
  | refused hrefuses =>
    cases hrefuses with
    | edit hread hedits => exact ⟨_, hread, hedits⟩

/-- An edit leaves the store as it is, or it alters files at the places of a writer. On success
there is a file in the place of the edited one. -/
theorem Edited.alters (h : Edited s options path edits s' result) (hs : s.IsTree)
    (htemporary : s.NoTemporaryLink options.process path) :
    s' = s ∨ ∃ l f, s.find? path.text = .ok (l, .file f) ∧
      Alters (s.writePlaces options.process l) s s' ∧
      ∀ outcome, result = .ok outcome → ∃ g, s'.node? l = some (.file g) := by
  cases h with
  | refused => exact .inl rfl
  | left => exact .inl rfl
  | unwritten hread hedits hchanged hdry hwrite =>
    obtain ⟨l, f, hfind, halters, -⟩ := write_alters hs htemporary hread hwrite
    exact .inr ⟨l, f, hfind, halters, by simp⟩
  | written hread hedits hchanged hdry hwrite =>
    obtain ⟨l, f, hfind, halters, hdone⟩ := write_alters hs htemporary hread hwrite
    obtain ⟨g, hg, -⟩ := hdone rfl
    exact .inr ⟨l, f, hfind, halters, fun _ _ => ⟨g, hg⟩⟩

theorem Edited.sameWays (h : Edited s options path edits s' result) (hs : s.IsTree)
    (htemporary : s.NoTemporaryLink options.process path) : SameWays s s' ∧ s'.IsTree := by
  obtain rfl | ⟨l, f, -, halters, -⟩ := h.alters hs htemporary
  · exact ⟨.refl s', hs⟩
  · exact ⟨halters.sameWays, halters.isTree hs⟩

end BlockEdit
