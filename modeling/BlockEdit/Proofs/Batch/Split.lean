import BlockEdit.Proofs.Batch.Rerun

/-!
# Editing a file in two goes

A list of edits can be carried out on a file in one go or in two, of which each reads and writes the
file. On a text, the second part of a list goes on with what the first part gave, and its edits are
numbered on (`Edit.applyAll_append_eq_ok_iff`, `Edit.applyAll_append_eq_error_iff`). In a store, the
second go reads what the first one left there, which is its result, whether or not it was written
(`exists_editFile_of_prepared`). So both ways agree in what becomes of the file and in which edit
fails; but when an edit of the second part fails, the first go has already changed the file
(`editFile_in_two_goes`). `two_goes_not_one` shows what a link in the place of the temporary file
does to the second go, and that two goes may have to write where one go has not.
-/

namespace BlockEdit

open Store

/-! ### Two lists of edits on a text -/

namespace Edit

variable {text out : String} {xs ys edits : List Edit} {failure : EditFailure} {k n : Nat}
  {cause : DocumentError}

theorem applyFrom_append (n : Nat) (text : String) (xs ys : List Edit) :
    applyFrom n text (xs ++ ys) =
      match applyFrom n text xs with
      | .error failure => .error failure
      | .ok middle => applyFrom (n + xs.length) middle ys := by
  induction xs generalizing n text with
  | nil => rfl
  | cons edit xs ih =>
    rw [List.cons_append, applyFrom, applyFrom]
    cases edit.apply text with
    | error cause => rfl
    | ok changed =>
      simp only [ih, List.length_cons]
      rw [Nat.add_assoc, Nat.add_comm 1]

/-- The number of the first edit is added to the numbers of all. -/
theorem applyFrom_add (m n : Nat) (text : String) (edits : List Edit) :
    applyFrom (n + m) text edits =
      (applyFrom n text edits).mapError fun failure => ⟨failure.edit + m, failure.cause⟩ := by
  induction edits generalizing n text with
  | nil => rfl
  | cons edit edits ih =>
    rw [applyFrom, applyFrom]
    cases edit.apply text with
    | error cause => rfl
    | ok changed =>
      rw [Nat.add_right_comm]
      exact ih (n + 1) changed

/-- The edit that fails is one of the list. -/
theorem edit_of_applyFrom_eq_error (h : applyFrom n text edits = .error failure) :
    n ≤ failure.edit ∧ failure.edit < n + edits.length := by
  induction edits generalizing n text with
  | nil => cases h
  | cons edit edits ih =>
    rw [applyFrom] at h
    rw [List.length_cons]
    cases happly : edit.apply text with
    | error cause =>
      rw [happly] at h
      obtain rfl := Except.error.inj h
      exact ⟨le_rfl, by simp⟩
    | ok changed =>
      rw [happly] at h
      have := ih h
      omega

theorem applyAll_append (text : String) (xs ys : List Edit) :
    applyAll text (xs ++ ys) =
      match applyAll text xs with
      | .error failure => .error failure
      | .ok middle => (applyAll middle ys).mapError fun failure =>
          ⟨failure.edit + xs.length, failure.cause⟩ := by
  rw [applyAll, applyFrom_append]
  cases h : applyFrom 1 text xs with
  | error failure => simp only [applyAll, h]
  | ok middle => simp only [applyAll, h, applyFrom_add]

theorem applyAll_append_eq_ok_iff :
    applyAll text (xs ++ ys) = .ok out ↔
      ∃ middle, applyAll text xs = .ok middle ∧ applyAll middle ys = .ok out := by
  rw [applyAll_append]
  cases applyAll text xs with
  | error failure => simp
  | ok middle => cases h : applyAll middle ys <;> simp [Except.mapError, h]

/-- An edit that fails belongs to the first list, or it belongs to the second one and fails there
when the first list has been carried out. -/
theorem applyAll_append_eq_error_iff :
    applyAll text (xs ++ ys) = .error ⟨k, cause⟩ ↔
      k ≤ xs.length ∧ applyAll text xs = .error ⟨k, cause⟩ ∨
      xs.length < k ∧ ∃ middle, applyAll text xs = .ok middle ∧
        applyAll middle ys = .error ⟨k - xs.length, cause⟩ := by
  rw [applyAll_append]
  constructor
  · intro h
    cases hxs : applyAll text xs with
    | error failure =>
      rw [hxs] at h
      obtain rfl := Except.error.inj h
      exact .inl ⟨Nat.le_of_lt_succ (by simpa [Nat.add_comm] using
        (edit_of_applyFrom_eq_error hxs).2), rfl⟩
    | ok middle =>
      rw [hxs] at h
      cases hys : applyAll middle ys with
      | ok out => simp [Except.mapError, hys] at h
      | error failure =>
        have hpos := (edit_of_applyFrom_eq_error hys).1
        obtain ⟨rfl, rfl⟩ : failure.edit + xs.length = k ∧ failure.cause = cause := by
          simpa [Except.mapError, hys] using h
        refine .inr ⟨by omega, middle, rfl, ?_⟩
        rw [hys, Nat.add_sub_cancel]
  · rintro (⟨-, hxs⟩ | ⟨hlt, middle, hxs, hys⟩)
    · rw [hxs]
    · rw [hxs]
      simp only [hys, Except.mapError, Nat.sub_add_cancel hlt.le]

end Edit

/-! ### Two goes at a file -/

/-- What the edits make of the text of a file is written without failure, if it is another text. -/
def Store.WritesEdited (s : Store) (options : EditOptions) (path : Path) (edits : List Edit) :
    Prop :=
  ∀ old new, s.readText path = .ok old → Edit.applyAll old edits = .ok new → old ≠ new →
    (s.write options.process path new.toUTF8).2 = .ok ()

variable {s s' : Store} {options : EditOptions} {path : Path} {edits xs ys : List Edit}
  {old new : String} {outcome : FileOutcome}

/-- Where no link stood in the place of a temporary file, there is none after a store has changed in
files alone. -/
theorem Store.SameWays.noTemporaryLink {process : Nat} (hways : SameWays s s')
    (hread : s.readText path = .ok old) (h : s.NoTemporaryLink process path) :
    s'.NoTemporaryLink process path := by
  intro l f hfind target hlink
  obtain ⟨l', f', hfind', -⟩ := readText_eq_ok_iff.1 hread
  have hlocate := hways.locate?_eq_ok_iff.1 (find?_eq_ok_iff.1 hfind).1
  obtain rfl : l' = l := Except.ok.inj ((find?_eq_ok_iff.1 hfind').1.symm.trans hlocate)
  exact h l' f' hfind' target ((hways.link _ _).1 hlink)

/-- A go at a file whose text can be read and edited, and that does not fail to write, leaves the
edited text there, and a store for which the same holds as before. -/
theorem exists_editFile_of_prepared (hs : s.IsTree)
    (htemporary : s.NoTemporaryLink options.process path) (hdry : options.dryRun = false)
    (hwrites : s.WritesEdited options path edits) (hread : s.readText path = .ok old)
    (hedits : Edit.applyAll old edits = .ok new) :
    ∃ s', s.editFile options path edits = (s', .ok (.ofTexts path options.dryRun old new)) ∧
      s'.readText path = .ok new ∧ s'.IsTree ∧ s'.NoTemporaryLink options.process path := by
  obtain ⟨hways, htree⟩ := (edited_editFile s options path edits).sameWays hs htemporary
  have hfree := hways.noTemporaryLink hread htemporary
  by_cases hchanged : old = new
  · subst hchanged
    have hfixed := (editFile_of_fixed options hread hedits).1
    exact ⟨s, hfixed, hread, hs, htemporary⟩
  · have hwritten : (FileOutcome.ofTexts path options.dryRun old new).written = true :=
      written_ofTexts.2 ⟨hchanged, hdry⟩
    cases hwrite : s.write options.process path new.toUTF8 with
    | mk s' result =>
      obtain rfl : result = .ok () := by rw [← hwrites old new hread hedits hchanged, hwrite]
      have hedit : s.editFile options path edits =
          (s', .ok (.ofTexts path options.dryRun old new)) := by
        rw [editFile_of_written hread hedits hwritten, hwrite]
      rw [hedit] at htree hfree
      exact ⟨s', hedit, readText_of_write hs htemporary hread hwrite, htree, hfree⟩

/-- When a file can be edited in one go, it can be edited in two, which leave the same text there.
The outcome of the first one tells the checksum from before, and that of the second one the checksum
of the result; in between, both tell the same one. When an edit fails in one go, that edit fails in
two: in the first go, which changes nothing, or in the second, which leaves the result of the first.
No hindrance to writing is meant here: there is no link in the place of the temporary file, and
neither of the two goes fails to write. -/
theorem editFile_in_two_goes (hs : s.IsTree) (htemporary : s.NoTemporaryLink options.process path)
    (hdry : options.dryRun = false) (hwrites : s.WritesEdited options path xs)
    (hwrites' : (s.editFile options path xs).1.WritesEdited options path ys) :
    let first := s.editFile options path xs
    let second := first.1.editFile options path ys
    (∀ s' outcome, s.editFile options path (xs ++ ys) = (s', .ok outcome) →
      ∃ outcome₁ outcome₂ text, first.2 = .ok outcome₁ ∧ second.2 = .ok outcome₂ ∧
        s'.readText path = .ok text ∧ second.1.readText path = .ok text ∧
        outcome₁.checksumBefore = outcome.checksumBefore ∧
        outcome₁.checksumAfter = outcome₂.checksumBefore ∧
        outcome₂.checksumAfter = outcome.checksumAfter) ∧
    ∀ s' k cause, s.editFile options path (xs ++ ys) = (s', .error (.edit path ⟨k, cause⟩)) →
      (k ≤ xs.length → first = (s, .error (.edit path ⟨k, cause⟩))) ∧
      (xs.length < k → ∃ old middle outcome₁, s.readText path = .ok old ∧
        Edit.applyAll old xs = .ok middle ∧ first.2 = .ok outcome₁ ∧
        second = (first.1, .error (.edit path ⟨k - xs.length, cause⟩)) ∧
        second.1.readText path = .ok middle) := by
  intro first second
  refine ⟨fun s' outcome hone => ?_, fun s' k cause hone => ?_⟩
  · obtain ⟨old, new, hread, hedits, rfl⟩ := exists_ofTexts_of_editFile hone
    obtain ⟨old', new', hread', hedits', hafter, -⟩ := readText_of_editFile hs htemporary hdry hone
    obtain rfl := Except.ok.inj (hread.symm.trans hread')
    obtain rfl := Except.ok.inj (hedits.symm.trans hedits')
    obtain ⟨middle, hxs, hys⟩ := Edit.applyAll_append_eq_ok_iff.1 hedits
    obtain ⟨s₁, hfirst, hread₁, htree, hfree⟩ :=
      exists_editFile_of_prepared hs htemporary hdry hwrites hread hxs
    rw [hfirst] at hwrites'
    obtain ⟨s₂, hsecond, hread₂, -⟩ :=
      exists_editFile_of_prepared htree hfree hdry hwrites' hread₁ hys
    have hsecond' : second = (s₂, .ok (.ofTexts path options.dryRun middle new)) := by
      simp only [second, first, hfirst, hsecond]
    exact ⟨_, _, new, congrArg Prod.snd hfirst, congrArg Prod.snd hsecond', hafter,
      by rw [hsecond', hread₂], rfl, rfl, rfl⟩
  · obtain ⟨old, hread, hedits⟩ := exists_applyAll_of_editFile hone
    obtain ⟨hle, hxs⟩ | ⟨hlt, middle, hxs, hys⟩ := Edit.applyAll_append_eq_error_iff.1 hedits
    · exact ⟨fun _ => editFile_of_refuses (.edit hread hxs), fun hlt => absurd hle hlt.not_ge⟩
    refine ⟨fun hle => absurd hle hlt.not_ge, fun _ => ?_⟩
    obtain ⟨s₁, hfirst, hread₁, -⟩ :=
      exists_editFile_of_prepared hs htemporary hdry hwrites hread hxs
    have hsecond : second = (s₁, .error (.edit path ⟨k - xs.length, cause⟩)) := by
      simp only [second, first, hfirst]
      exact editFile_of_refuses (.edit hread₁ hys)
    have hstore : first.1 = s₁ := congrArg Prod.fst hfirst
    exact ⟨old, middle, _, hread, hxs, congrArg Prod.snd hfirst, by rw [hsecond, hstore],
      by rw [hsecond, hread₁]⟩

/-- An insertion that the second go takes back, so that one go would not have written, and a list of
edits of which the third one fails, the second one of the second go. -/
theorem editFile_in_two_goes_taken_back :
    let s : Store := (Store.root []).put ["a"] (.file ⟨"x".toUTF8, 0o600, false⟩)
    let options : EditOptions := ⟨7, false⟩
    let path : Path := ⟨"a"⟩
    let xs : List Edit := [.insertBefore "x" "y"]
    let ys : List Edit := [.replaceSpan ⟨0, 1⟩ ""]
    let zs : List Edit := [.replaceSpan ⟨0, 1⟩ "", .insertBefore "q" "z"]
    let first := s.editFile options path xs
    let one := s.editFile options path (xs ++ ys)
    let failed := s.editFile options path (xs ++ zs)
    s.IsTree ∧ s.NoTemporaryLink options.process path ∧ s.WritesEdited options path xs ∧
      first.1.WritesEdited options path ys ∧ first.1.WritesEdited options path zs ∧
      one.2.map (·.written) = .ok false ∧
      (∃ outcome₂, (first.1.editFile options path ys).2 = .ok outcome₂ ∧
        (first.1.editFile options path ys).1.readText path = .ok "x") ∧
      failed.2 = .error (.edit path ⟨3, .markerNotFound "q" 1 0⟩) ∧
      first.1.editFile options path zs =
        (first.1, .error (.edit path ⟨2, .markerNotFound "q" 1 0⟩)) ∧
      (first.1.editFile options path zs).1.readText path = .ok "yx" := by
  intro s options path xs ys zs first one failed
  have hname : IsName "a" := by decide
  have hs : s.IsTree :=
    (isTree_root []).put (node?_nil _) hname (by decide) (fileOrNone_of_none rfl)
  have htemporary : s.NoTemporaryLink 7 path := fun l f hfind target => by
    have hfound : s.find? "a" = .ok (["a"], .file ⟨"x".toUTF8, 0o600, false⟩) := by decide +kernel
    obtain ⟨rfl, -⟩ : ["a"] = l ∧ _ := by simpa [path, hfound] using hfind
    have hnone : s.node? (temporaryOf 7 ["a"]) = none := by decide +kernel
    simp [hnone]
  have hread : s.readText path = .ok "x" := by decide +kernel
  have hxs : Edit.applyAll "x" xs = .ok "yx" := by decide +kernel
  have hmiddle : first.1.readText path = .ok "yx" := by decide +kernel
  have hwrites : s.WritesEdited options path xs := fun old new hold hnew _ => by
    obtain rfl := Except.ok.inj (hread.symm.trans hold)
    obtain rfl := Except.ok.inj (hxs.symm.trans hnew)
    decide +kernel
  have hys : first.1.WritesEdited options path ys := fun old new hold hnew _ => by
    have happly : Edit.applyAll "yx" ys = .ok "x" := by decide +kernel
    obtain rfl := Except.ok.inj (hmiddle.symm.trans hold)
    obtain rfl := Except.ok.inj (happly.symm.trans hnew)
    decide +kernel
  have hzs : first.1.WritesEdited options path zs := fun old new hold hnew _ => by
    have happly : Edit.applyAll "yx" zs = .error ⟨2, .markerNotFound "q" 1 0⟩ := by
      decide +kernel
    obtain rfl := Except.ok.inj (hmiddle.symm.trans hold)
    rw [happly] at hnew
    cases hnew
  have hone : one.2.map (·.written) = .ok false := by decide +kernel
  have hsame : one.1.readText path = .ok "x" := by decide +kernel
  have hfailed : failed.2 = .error (.edit path ⟨3, .markerNotFound "q" 1 0⟩) := by decide +kernel
  refine ⟨hs, htemporary, hwrites, hys, hzs, hone, ?_, hfailed, ?_⟩
  · cases hresult : one with
    | mk s' result =>
      rw [hresult] at hone hsame
      cases result with
      | error e => cases hone
      | ok outcome =>
        obtain ⟨hgoes, -⟩ :=
          @editFile_in_two_goes s options path xs ys hs htemporary rfl hwrites hys
        obtain ⟨-, outcome₂, text, -, hsecond, hread', hafter, -⟩ := hgoes s' outcome hresult
        obtain rfl := Except.ok.inj (hsame.symm.trans hread')
        exact ⟨outcome₂, hsecond, hafter⟩
  · have hpair : failed = (failed.1, .error (.edit path ⟨3, .markerNotFound "q" 1 0⟩)) :=
      Prod.ext rfl hfailed
    obtain ⟨-, hgoes⟩ := @editFile_in_two_goes s options path xs zs hs htemporary rfl hwrites hzs
    obtain ⟨-, hbehind⟩ := hgoes _ _ _ hpair
    obtain ⟨old, middle, -, hold, hold', -, hsecond, hafter⟩ := hbehind (by decide)
    obtain rfl := Except.ok.inj (hread.symm.trans hold)
    obtain rfl := Except.ok.inj (hxs.symm.trans hold')
    exact ⟨hsecond, hafter⟩

/-- Two trees in which two goes do not come to what one go does. In the first one the temporary file
of the process is a link to the file. All writes succeed, but the link takes the place of the file
and leads to itself, so that the second go cannot read it. In the other one a directory stands in
the place of the lock file. One go has nothing to write, and the first of two fails to write. -/
theorem two_goes_not_one :
    let options : EditOptions := ⟨7, false⟩
    let path : Path := ⟨"a"⟩
    let xs : List Edit := [.insertBefore "x" "y"]
    let ys : List Edit := [.replaceSpan ⟨0, 1⟩ ""]
    let zs : List Edit := [.insertBefore "x" "z"]
    let s : Store := (Store.root []).put ["a"] (.file ⟨"x".toUTF8, 0o600, false⟩)
    let linked := s.put [".a.7.tmp"] (.link "a")
    let barred := s.put ["a.lock"] .directory
    (linked.editFile options path (xs ++ zs)).2.map (·.written) = .ok true ∧
      (linked.editFile options path xs).2.map (·.written) = .ok true ∧
      ((linked.editFile options path xs).1.editFile options path zs).2 =
        .error (.store (.io "a" .tooManyLinks)) ∧
      (barred.editFile options path (xs ++ ys)).2.map (·.written) = .ok false ∧
      (barred.editFile options path xs).2 = .error (.store (.io "/a.lock" .isDirectory)) := by
  intro options path xs ys zs s linked barred
  exact ⟨by decide +kernel, by decide +kernel, by decide +kernel, by decide +kernel,
    by decide +kernel⟩

end BlockEdit
