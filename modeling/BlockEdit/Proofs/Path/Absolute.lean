import BlockEdit.Proofs.Path.Meaning

/-!
# Which texts are absolute paths

A text is written as an absolute path when it starts with a separator, or with a drive, which is a
letter and a colon, and a separator (`IsWrittenAbsolute`). Whether a path is absolute is decided by
its normal form, and normalizing keeps a separator at the start, but it does not know drives: they
are names like others. So `..` takes a drive away, nothing but the name of a drive is left of its
root directory, and a drive may come to the front that was not there before (`drive_root_lost`).

`isAbsolute_ofString_iff` says what counts instead (`StaysAbsolute`): a separator at the start, or
where the text leads. Where the walk along the text leaves alone what it starts with (`KeepsFront`),
this is how the text is written.
-/

namespace BlockEdit.Path

open Meaning

variable {cs : List Char} {ps : List (List Char)} {letter : Char} {path : Path}

/-- The text, whose separators are all `/`, starts with a separator or with a drive and one. -/
def IsWrittenAbsolute (cs : List Char) : Prop :=
  cs.head? = some '/' ∨ ∃ letter rest, letter.isAlpha = true ∧ cs = letter :: ':' :: '/' :: rest

/-- The pieces begin with a drive, and there are more. -/
def BeginsWithDrive (ps : List (List Char)) : Prop :=
  ∃ letter next rest, letter.isAlpha = true ∧ ps = [letter, ':'] :: next :: rest

/-- The path leads through a drive, and to something there. -/
def Meaning.IsOnDrive (m : Meaning) : Prop :=
  m.root = .relative ∧ m.ups = 0 ∧ BeginsWithDrive m.names.reverse

/-- The text starts with a separator, or it leads to something on a drive. -/
def StaysAbsolute (cs : List Char) : Prop := cs.head? = some '/' ∨ (ofChars cs).IsOnDrive

/-! ### Absolute paths and their pieces -/

theorem isAbsolute_iff : path.isAbsolute = true ↔ IsWrittenAbsolute path.text.toList := by
  constructor
  · intro h
    unfold isAbsolute at h
    split at h
    · next hslash => exact .inl (by rw [hslash]; rfl)
    · next drive rest _ hdrive => exact .inr ⟨drive, rest, h, hdrive⟩
    · cases h
  · rintro (hslash | ⟨letter, rest, hletter, hdrive⟩)
    · exact IsRooted.isAbsolute hslash
    · unfold isAbsolute
      rw [hdrive]
      split
      · rfl
      · next h => rwa [← (List.cons.inj h).1]
      · next h => exact absurd rfl (h letter rest)

instance (cs : List Char) : Decidable (IsWrittenAbsolute cs) :=
  decidable_of_iff ((⟨String.ofList cs⟩ : Path).isAbsolute = true) <| by
    rw [isAbsolute_iff, String.toList_ofList]

theorem pieces_drive (h : letter.isAlpha = true) (rest : List Char) :
    pieces (letter :: ':' :: '/' :: rest) = [letter, ':'] :: pieces rest := by
  have hslash : '/' ∉ [letter, ':'] := by
    have hne : letter ≠ '/' := by
      rintro rfl
      exact absurd h (by decide)
    simp [hne.symm]
  have hpieces := pieces_append [letter, ':'] rest
  rwa [pieces_eq_singleton hslash] at hpieces

/-- The pieces of a text tell whether it starts with a drive and a separator. -/
theorem beginsWithDrive_pieces_iff :
    BeginsWithDrive (pieces cs) ↔
      ∃ letter rest, letter.isAlpha = true ∧ cs = letter :: ':' :: '/' :: rest := by
  constructor
  · rintro ⟨letter, next, rest, hletter, hpieces⟩
    refine ⟨letter, joinPieces (next :: rest), hletter, ?_⟩
    rw [← joinPieces_pieces cs, hpieces]
    rfl
  · rintro ⟨letter, rest, hletter, rfl⟩
    obtain ⟨next, more, hrest⟩ := List.exists_cons_of_ne_nil (pieces_ne_nil rest)
    exact ⟨letter, next, more, hletter, by rw [pieces_drive hletter, hrest]⟩

theorem isWrittenAbsolute_iff :
    IsWrittenAbsolute cs ↔ cs.head? = some '/' ∨ BeginsWithDrive (pieces cs) := by
  rw [beginsWithDrive_pieces_iff, IsWrittenAbsolute]

/-! ### Absolute normal forms -/

theorem not_beginsWithDrive_nil : ¬BeginsWithDrive [] := by
  rintro ⟨letter, next, rest, -, h⟩
  cases h

theorem not_beginsWithDrive_up : ¬BeginsWithDrive (up :: ps) := by
  rintro ⟨letter, next, rest, -, h⟩
  have hname : up = [letter, ':'] := (List.cons.inj h).1
  exact absurd hname (by simp [up])

/-- Steps up do not lead through a drive. -/
theorem beginsWithDrive_walked_iff {m : Meaning} :
    BeginsWithDrive m.walked.reverse ↔ m.ups = 0 ∧ BeginsWithDrive m.names.reverse := by
  rw [walked, List.reverse_append, List.reverse_replicate]
  cases m.ups with
  | zero => simp
  | succ n =>
    rw [List.replicate_succ, List.cons_append]
    simp [not_beginsWithDrive_up]

/-- A meaning without a root is written as an absolute path when it leads to something on a
drive. -/
theorem Meaning.IsSound.isWrittenAbsolute_chars_iff {m : Meaning} (h : m.IsSound)
    (hroot : m.root = .relative) : IsWrittenAbsolute m.chars ↔ m.IsOnDrive := by
  have hps := h.isPiece
  have hhead : m.chars.head? ≠ some '/' := by
    rw [chars, hroot]
    split
    · decide
    · exact head?_joinPieces hps
  have hpieces : BeginsWithDrive (pieces m.chars) ↔ BeginsWithDrive m.walked.reverse := by
    rw [chars, hroot, Root.chars, List.nil_append]
    by_cases hnil : m.walked.reverse = []
    · rw [hnil]
      simp [joinPieces, BeginsWithDrive, here, pieces]
    · have hread := pieces_joinPieces hnil fun p hp => (hps p hp).2
      split
      · next hempty =>
        rw [hempty] at hread
        exact absurd rfl (hps [] (by rw [← hread]; exact List.mem_singleton_self _)).1
      · rw [hread]
  rw [isWrittenAbsolute_iff, or_iff_right hhead, hpieces, beginsWithDrive_walked_iff, IsOnDrive,
    and_iff_right hroot]

/-- Normalizing keeps a separator at the start, and apart from that a path is absolute when it leads
to something on a drive. -/
theorem isWrittenAbsolute_clean_iff : IsWrittenAbsolute (clean cs) ↔ StaysAbsolute cs := by
  by_cases hslash : cs.head? = some '/'
  · obtain ⟨rest, rfl⟩ := List.head?_eq_some_iff.1 hslash
    exact iff_of_true (.inl (head?_clean_slash rest)) (.inl hslash)
  rw [StaysAbsolute, or_iff_right hslash]
  by_cases hcs : cs = []
  · subst hcs
    refine iff_of_false ?_ fun h => not_beginsWithDrive_nil h.2.2
    simp [IsWrittenAbsolute, clean_eq_nil_iff.2]
  · have hroot : (ofChars cs).root = .relative := by
      rw [root_ofChars]
      exact rootOf_chars_append .relative hslash
    rw [clean_eq_chars hcs, (isSound_ofChars cs).isWrittenAbsolute_chars_iff hroot]

/-! ### Paths without steps up -/

/-- The pieces that are neither empty nor `.`. -/
def entered (ps : List (List Char)) : List (List Char) := ps.filter fun p => ¬(p = [] ∨ p = here)

/-- The text is the root directory of a drive, which may be written with more separators and `.`. -/
def IsDriveRoot (cs : List Char) : Prop :=
  ∃ letter rest, letter.isAlpha = true ∧ cs = letter :: ':' :: '/' :: rest ∧
    entered (pieces rest) = []

theorem entered_cons_of_stay {p : List Char} (h : p = [] ∨ p = here) :
    entered (p :: ps) = entered ps := by
  obtain rfl | rfl := h <;> rfl

theorem entered_cons_of_name {p : List Char} (h : ¬(p = [] ∨ p = here)) :
    entered (p :: ps) = p :: entered ps :=
  List.filter_cons_of_pos (by simpa using h)

/-- A walk without steps up enters each piece that is a name. -/
theorem foldl_enter_of_up_not_mem (hslash : ∀ p ∈ ps, '/' ∉ p) (hup : up ∉ ps) (m : Meaning) :
    ps.foldl enter m = { m with names := (entered ps).reverse ++ m.names } := by
  induction ps generalizing m with
  | nil => rfl
  | cons p ps ih =>
    obtain ⟨hp, hslash⟩ := List.forall_mem_cons.1 hslash
    obtain ⟨hne, hup⟩ := not_or.1 (mt List.mem_cons.2 hup)
    rw [List.foldl_cons, ih hslash hup]
    by_cases hstay : p = [] ∨ p = here
    · rw [enter_stay hstay, entered_cons_of_stay hstay]
    · obtain ⟨hempty, hhere⟩ := not_or.1 hstay
      have hname : IsNamePiece p := ⟨hempty, hhere, fun h => hne h.symm, hp⟩
      rw [enter_name hname, entered_cons_of_name hstay]
      simp

theorem isOnDrive_ofChars_iff (hslash : cs.head? ≠ some '/') (hup : up ∉ pieces cs) :
    (ofChars cs).IsOnDrive ↔ BeginsWithDrive (entered (pieces cs)) := by
  have hroot : rootOf cs = .relative := rootOf_chars_append .relative hslash
  rw [ofChars, rootOfSlashes_eq, hroot,
    foldl_enter_of_up_not_mem (fun _ => slash_not_mem_of_mem_pieces) hup]
  simp [IsOnDrive]

/-- Where the first piece is a name, a drive comes first before the walk just when it does after it,
but for the root directory of a drive. -/
theorem beginsWithDrive_entered_iff (hslash : cs.head? ≠ some '/')
    (hhere : (pieces cs).head? ≠ some here) (hroot : ¬IsDriveRoot cs) :
    BeginsWithDrive (entered (pieces cs)) ↔ BeginsWithDrive (pieces cs) := by
  constructor
  · rintro ⟨letter, next, rest, hletter, hentered⟩
    cases cs with
    | nil => cases hentered
    | cons c cs =>
      obtain ⟨p, ps, -, hcs⟩ := pieces_cons (by simpa using hslash) cs
      rw [hcs] at hentered hhere ⊢
      have hname : ¬(c :: p = [] ∨ c :: p = here) := by simpa using hhere
      rw [entered_cons_of_name hname, List.cons.injEq] at hentered
      obtain ⟨hdrive, hentered⟩ := hentered
      cases ps with
      | nil => cases hentered
      | cons q qs => exact ⟨letter, q, qs, hletter, by rw [hdrive]⟩
  · intro h
    obtain ⟨letter, rest, hletter, rfl⟩ := beginsWithDrive_pieces_iff.1 h
    have hne : entered (pieces rest) ≠ [] := fun hnil =>
      hroot ⟨letter, rest, hletter, rfl, hnil⟩
    obtain ⟨next, more, hrest⟩ := List.exists_cons_of_ne_nil hne
    refine ⟨letter, next, more, hletter, ?_⟩
    rw [pieces_drive hletter, ← hrest]
    exact entered_cons_of_name (by simp [here])

/-! ### Texts -/

/-- Whatever the text starts with is still there when it has been walked. -/
structure KeepsFront (cs : List Char) : Prop where
  up : up ∉ pieces cs
  here : (pieces cs).head? ≠ some here
  drive : ¬IsDriveRoot cs

theorem KeepsFront.staysAbsolute_iff (h : KeepsFront cs) :
    StaysAbsolute cs ↔ IsWrittenAbsolute cs := by
  rw [StaysAbsolute, isWrittenAbsolute_iff]
  by_cases hslash : cs.head? = some '/'
  · exact iff_of_true (.inl hslash) (.inl hslash)
  · rw [or_iff_right hslash, or_iff_right hslash, isOnDrive_ofChars_iff hslash h.up,
      beginsWithDrive_entered_iff hslash h.here h.drive]

/-- A text is an absolute path when it starts with a separator or leads to something on a drive, and
just then it is not seen from the base that it is resolved against. This is how it is written, if
there are no steps up, no `.` in front and more than the root directory of a drive. -/
theorem isAbsolute_ofString_iff (s : String) :
    ((ofString s).isAbsolute = true ↔ StaysAbsolute (unifySeparators s.toList)) ∧
    (KeepsFront (unifySeparators s.toList) →
      ((ofString s).isAbsolute = true ↔ IsWrittenAbsolute (unifySeparators s.toList))) ∧
    ∀ base : Path,
      (StaysAbsolute (unifySeparators s.toList) →
        (ofString s).resolveAgainst base = ofString s) ∧
      (¬StaysAbsolute (unifySeparators s.toList) →
        (ofString s).resolveAgainst base = base.join (ofString s).text) := by
  have hstays : (ofString s).isAbsolute = true ↔ StaysAbsolute (unifySeparators s.toList) := by
    rw [isAbsolute_iff, text_ofString, String.toList_ofList, isWrittenAbsolute_clean_iff]
  refine ⟨hstays, fun hfront => ?_, fun base => ⟨fun h => ?_, fun h => ?_⟩⟩
  · rw [hstays, hfront.staysAbsolute_iff]
  · exact if_pos (hstays.2 h)
  · exact if_neg (mt hstays.1 h)

theorem isAbsolute_ofString_iff_drive :
    KeepsFront (unifySeparators "C:\\app\\App.js".toList) ∧
      (ofString "C:\\app\\App.js").isAbsolute = true := by
  have hfront : KeepsFront (unifySeparators "C:\\app\\App.js".toList) :=
    ⟨by decide, by decide, by
      rintro ⟨letter, rest, -, htext, hrest⟩
      obtain ⟨-, rfl⟩ : 'C' = letter ∧ "app/App.js".toList = rest := by
        simpa [unifySeparators] using htext
      exact absurd hrest (by decide)⟩
  exact ⟨hfront, ((isAbsolute_ofString_iff _).2.1 hfront).2 (.inr ⟨'C', _, rfl, rfl⟩)⟩

/-- The root directory of a drive is written as an absolute path, and so is a step up from there,
but both are seen from the base. A drive behind `.` is not written as one, and it is not seen from
the base. -/
theorem drive_root_lost :
    (IsWrittenAbsolute (unifySeparators "C:/".toList) ∧ (ofString "C:/").isAbsolute = false ∧
      (ofString "C:/").resolveAgainst ⟨"/work"⟩ = ⟨"/work/C:"⟩) ∧
    (IsWrittenAbsolute (unifySeparators "C:/../x".toList) ∧
      (ofString "C:/../x").resolveAgainst ⟨"/work"⟩ = ⟨"/work/x"⟩) ∧
    (¬IsWrittenAbsolute (unifySeparators "./C:/x".toList) ∧
      (ofString "./C:/x").isAbsolute = true ∧
      (ofString "./C:/x").resolveAgainst ⟨"/work"⟩ = ⟨"C:/x"⟩) := by
  decide +kernel

end BlockEdit.Path
