import BlockEdit.Proofs.Batch.Editing

/-!
# Editing a file as a whole

`Store.editFile` reads a file, edits its text and writes it back. `EditFailed` lists the ways in
which that can fail, and `EditDone` says what holds when it succeeds. In both cases the store that
is left is named: it is the store from before, apart from a file that holds the lock for the edited
one, or it has the new text in the place of the old one.

These notions are for a tree in which nothing stands in the way of a writer (`WriterFree`).
-/

namespace BlockEdit

open Store

/-- A process can write the file to which a path leads: it has no temporary file from before, and
the file that guards it is not a link. -/
def WriterFree (s : Store) (process : Nat) (path : Path) : Prop :=
  ∀ l f, s.find? path.text = .ok (l, .file f) →
    s.node? (temporaryOf process l) = none ∧ ∀ target, s.node? (lockOf l) ≠ some (.link target)

section

variable (s : Store) (options : EditOptions) (path : Path) (edits : List Edit)

/-- How an edit of a file fails, and the store that is left. -/
inductive EditFailed : Store → BatchError → Prop
  | read {e} (hread : s.readText path = .error e) : EditFailed s (.store e)
  | edit {old failure} (hread : s.readText path = .ok old)
      (hedits : Edit.applyAll old edits = .error failure) : EditFailed s (.edit path failure)
  | write {old new l f s' e} (hread : s.readText path = .ok old)
      (hedits : Edit.applyAll old edits = .ok new) (hchanged : old ≠ new)
      (hwrite : options.dryRun = false) (hfind : s.find? path.text = .ok (l, .file f))
      (hleft : s' = s ∨ s.node? (lockOf l) = none ∧ s' = s.put (lockOf l) (.file .empty)) :
      EditFailed s' (.store e)

/-- The outcome of an edit that makes `new` of the text `old`, and the store that is left. -/
structure EditDone (old new : String) (s' : Store) (outcome : FileOutcome) : Prop where
  shown : outcome.path = path.text
  read : s.readText path = .ok old
  edits : Edit.applyAll old edits = .ok new
  changed : outcome.changed = true ↔ old ≠ new
  written : outcome.written = true ↔ outcome.changed = true ∧ options.dryRun = false
  checksumBefore : outcome.checksumBefore = Checksum.ofText old
  checksumAfter : outcome.checksumAfter = Checksum.ofText new
  summary : outcome.summary = .between old new
  diff : outcome.diff =
    if options.dryRun ∧ outcome.changed then some (Diff.unified path.text old new) else none
  kept : outcome.written = false → s' = s
  /-- The new text stands in the place of the old one, with the permissions of the old file. -/
  replaced : outcome.written = true → ∃ l f, s.find? path.text = .ok (l, .file f) ∧
    s'.find? path.text = .ok (l, .file ⟨new.toUTF8, f.mode, false⟩) ∧
    s' = (s.withLock l).put l (.file ⟨new.toUTF8, f.mode, false⟩)

end

variable {s s' : Store} {options : EditOptions} {path : Path} {edits : List Edit} {e : BatchError}
  {l : Location} {n : FileNode}

theorem WriterFree.noTemporaryLink {process : Nat} (h : WriterFree s process path) :
    s.NoTemporaryLink process path := fun l f hfind target => by
  rw [(h l f hfind).1]
  exact nofun

theorem withLock_eq (s : Store) (l : Location) :
    s.withLock l = s ∨
      s.node? (lockOf l) = none ∧ s.withLock l = s.put (lockOf l) (.file .empty) := by
  cases h : s.node? (lockOf l) with
  | none => exact .inr ⟨rfl, withLock_of_none h⟩
  | some n => exact .inl (withLock_of_some h)

theorem sameWays_withLock (s : Store) (l : Location) : SameWays s (s.withLock l) := by
  obtain h | ⟨hnone, h⟩ := withLock_eq s l
  · rw [h]
    exact .refl s
  · rw [h]
    exact sameWays_put (fileOrNone_of_none hnone)

/-- A failed edit leaves everything as it was that stood somewhere. -/
theorem EditFailed.node?_eq (h : EditFailed s options path edits s' e) (hl : s.node? l = some n) :
    s'.node? l = some n := by
  cases h with
  | read => exact hl
  | edit => exact hl
  | write hread hedits hchanged hwrite hfind hleft =>
    rcases hleft with rfl | ⟨hnone, rfl⟩
    · exact hl
    · have hne : l ≠ lockOf _ := fun heq => by
        rw [heq, hnone] at hl
        cases hl
      rw [node?_put_of_ne (fileOrNone_of_none hnone).ne_nil hne, hl]

/-- A file that was read is found again with the new text when it has been written. -/
theorem write_editDone (hs : s.IsTree) {old new : String} {s' : Store}
    (hread : s.readText path = .ok old) (hfree : WriterFree s options.process path)
    (hwrite : s.write options.process path new.toUTF8 = (s', .ok ())) :
    ∃ l f, s.find? path.text = .ok (l, .file f) ∧
      s'.find? path.text = .ok (l, .file ⟨new.toUTF8, f.mode, false⟩) ∧
      s' = (s.withLock l).put l (.file ⟨new.toUTF8, f.mode, false⟩) := by
  obtain ⟨l, f, hfind, -⟩ := readText_eq_ok_iff.1 hread
  obtain ⟨htemporary, hlock⟩ := hfree l f hfind
  have hl := (find?_eq_ok_iff.1 hfind).2
  rcases write_found hs new.toUTF8 hfind htemporary hlock with ⟨e, h⟩ | ⟨e, h⟩ | h
  · rw [hwrite] at h; cases h
  · rw [hwrite] at h; cases h
  rw [hwrite] at h
  obtain rfl : s' = _ := congrArg Prod.fst h
  obtain ⟨f', hl'⟩ := keeps_withLock.file (l := l) hl
  have hput := fileOrNone_of_file hl'
  have hways : SameWays s ((s.withLock l).put l (.file ⟨new.toUTF8, f.mode, false⟩)) :=
    (sameWays_withLock s l).trans (sameWays_put hput)
  have hlocate := hways.locate?_eq_ok_iff.2 (find?_eq_ok_iff.1 hfind).1
  exact ⟨l, f, hfind, find?_eq_ok_iff.2 ⟨hlocate, node?_put_self hput.ne_nil⟩, rfl⟩

/-- A file that was read and cannot be written leaves a file for its lock at most. -/
theorem write_editFailed (hs : s.IsTree) {old new : String} {s' : Store} {e : StoreError}
    (hread : s.readText path = .ok old) (hfree : WriterFree s options.process path)
    (hwrite : s.write options.process path new.toUTF8 = (s', .error e)) :
    ∃ l f, s.find? path.text = .ok (l, .file f) ∧
      (s' = s ∨ s.node? (lockOf l) = none ∧ s' = s.put (lockOf l) (.file .empty)) := by
  obtain ⟨l, f, hfind, -⟩ := readText_eq_ok_iff.1 hread
  obtain ⟨htemporary, hlock⟩ := hfree l f hfind
  refine ⟨l, f, hfind, ?_⟩
  rcases write_found hs new.toUTF8 hfind htemporary hlock with ⟨e, h⟩ | ⟨e, h⟩ | h
  · rw [hwrite] at h; cases h; exact .inl rfl
  · rw [hwrite] at h; cases h; exact withLock_eq s l
  · rw [hwrite] at h; cases h

/-- The outcome for two texts is the right one if the store is. -/
theorem editDone_ofTexts {old new : String} (hread : s.readText path = .ok old)
    (hedits : Edit.applyAll old edits = .ok new)
    (hkept : (FileOutcome.ofTexts path options.dryRun old new).written = false → s' = s)
    (hreplaced : (FileOutcome.ofTexts path options.dryRun old new).written = true →
      ∃ l f, s.find? path.text = .ok (l, .file f) ∧
        s'.find? path.text = .ok (l, .file ⟨new.toUTF8, f.mode, false⟩) ∧
        s' = (s.withLock l).put l (.file ⟨new.toUTF8, f.mode, false⟩)) :
    EditDone s options path edits old new s' (.ofTexts path options.dryRun old new) where
  shown := rfl
  read := hread
  edits := hedits
  changed := by simp [FileOutcome.ofTexts]
  written := by simp [FileOutcome.ofTexts]
  checksumBefore := rfl
  checksumAfter := rfl
  summary := rfl
  diff := by simp [FileOutcome.ofTexts]
  kept := hkept
  replaced := hreplaced

/-- What an edit of a file comes to where nothing stands in the way of a writer. -/
theorem Edited.failed_or_done (hs : s.IsTree) (hfree : WriterFree s options.process path)
    {result : Except BatchError FileOutcome} (h : Edited s options path edits s' result) :
    (∃ e, result = .error e ∧ EditFailed s options path edits s' e) ∨
      ∃ outcome old new, result = .ok outcome ∧
        EditDone s options path edits old new s' outcome := by
  cases h with
  | refused h =>
    cases h with
    | read hread => exact .inl ⟨_, rfl, .read hread⟩
    | edit hread hedits => exact .inl ⟨_, rfl, .edit hread hedits⟩
  | left hread hedits hleft =>
    refine .inr ⟨_, _, _, rfl, editDone_ofTexts hread hedits (fun _ => rfl) fun hwritten => ?_⟩
    obtain ⟨hchanged, hdry⟩ := written_ofTexts.1 hwritten
    rcases hleft with hsame | hdry'
    · exact absurd hsame hchanged
    · exact absurd (hdry.symm.trans hdry') (by decide)
  | unwritten hread hedits hchanged hdry hwrite =>
    obtain ⟨l, f, hfind, hleft⟩ := write_editFailed hs hread hfree hwrite
    exact .inl ⟨_, rfl, .write hread hedits hchanged hdry hfind hleft⟩
  | written hread hedits hchanged hdry hwrite =>
    refine .inr ⟨_, _, _, rfl, editDone_ofTexts hread hedits (fun hnot => ?_) fun _ => ?_⟩
    · exact absurd (written_ofTexts.2 ⟨hchanged, hdry⟩) (Bool.eq_false_iff.1 hnot)
    · exact write_editDone hs hread hfree hwrite

theorem editFile_cases (hs : s.IsTree) (hfree : WriterFree s options.process path) :
    (∃ s' e, s.editFile options path edits = (s', .error e) ∧
      EditFailed s options path edits s' e) ∨
    ∃ s' outcome old new, s.editFile options path edits = (s', .ok outcome) ∧
      EditDone s options path edits old new s' outcome := by
  obtain ⟨e, hresult, h⟩ | ⟨outcome, old, new, hresult, h⟩ :=
    (edited_editFile s options path edits).failed_or_done hs hfree
  · exact .inl ⟨_, e, Prod.ext rfl hresult, h⟩
  · exact .inr ⟨_, outcome, old, new, Prod.ext rfl hresult, h⟩

theorem node?_editFile_of_error (hs : s.IsTree) (hfree : WriterFree s options.process path)
    (herror : (s.editFile options path edits).2 = .error e) (hl : s.node? l = some n) :
    (s.editFile options path edits).1.node? l = some n := by
  obtain ⟨e', -, hfailed⟩ | ⟨outcome, old, new, hok, -⟩ :=
    (edited_editFile s options path edits).failed_or_done hs hfree
  · exact hfailed.node?_eq hl
  · rw [hok] at herror
    cases herror

/-- The disk is full when one byte of the new text has arrived. -/
example :
    let file : FileNode := .file ⟨"x".toUTF8, 0o600, false⟩
    let s : Store := { (Store.root []).put ["a"] file with
      refuses := fun
        | .fill _ _ => some ⟨.noSpace, 1⟩
        | _ => none }
    let edited := s.editFile ⟨7, false⟩ ⟨"a"⟩ [.insertBefore "x" "y"]
    edited.2 = .error (.store (.io "/.a.7.tmp" .noSpace)) ∧
      edited.1.node? ["a"] = some file ∧ edited.1.node? [".a.7.tmp"] = none ∧
      edited.1.node? ["a.lock"] = some (.file .empty) := by decide +kernel

end BlockEdit
