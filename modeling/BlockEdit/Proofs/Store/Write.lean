import BlockEdit.Proofs.Store.Replacement
import BlockEdit.Store.Read
import Mathlib.Data.List.Basic

/-!
# Writing a file that is there

A path is read by the file to which it leads (`readText_eq_ok_iff`). `write_found` says what
`Store.write` does with a path that leads to a file: it fails and changes nothing, it fails when
there is a new file to hold the lock, or it puts the new bytes in the place of the old ones.
-/

namespace BlockEdit.Store

variable {s s' : Store} {follow : Bool} {links : Nat} {here l : Location} {xs : List String}
  {path : Path} {f : File} {n : FileNode}

/-! ### Reading -/

theorem fromUTF8?_eq_some_iff {bytes : ByteArray} {text : String} :
    String.fromUTF8? bytes = some text ↔ bytes = text.toUTF8 := by
  rw [String.fromUTF8?, String.toUTF8_eq_toByteArray]
  constructor
  · intro h
    split at h
    · rw [← Option.some.inj h]
      rfl
    · cases h
  · rintro rfl
    rw [dif_pos text.isValidUTF8]
    rfl

/-- The text of a path is that of the file to which it leads. -/
theorem readText_eq_ok_iff {text : String} :
    s.readText path = .ok text ↔
      ∃ l f, s.find? path.text = .ok (l, .file f) ∧ f.bytes = text.toUTF8 := by
  unfold readText readBytes
  constructor
  · intro h
    split at h
    · cases h
    · next bytes hbytes =>
      split at hbytes
      · cases hbytes
      · next l f hfind =>
        split at h
        · cases h
        · next text' htext =>
          cases h
          cases hbytes
          exact ⟨l, f, hfind, fromUTF8?_eq_some_iff.1 htext⟩
      · cases hbytes
  · rintro ⟨l, f, hfind, hbytes⟩
    simp only [hfind, fromUTF8?_eq_some_iff.2 hbytes]

/-! ### Replacing what a path leads to -/

theorem IsTree.isName_getLast (hs : s.IsTree) {dir : Location} {name : String}
    (hl : s.node? (dir ++ [name]) = some n) : IsName name :=
  (hs.name hl name (by simp)).1

/-- The path of a file in a tree leads to it. -/
theorem IsTree.concerns (hs : s.IsTree) (bytes : ByteArray) (mode : Option Nat) (process : Nat)
    {dir : Location} {name : String} (hl : s.node? (dir ++ [name]) = some (.file f)) :
    Replacement.Concerns ⟨pathOf (dir ++ [name]), bytes, mode, process⟩ s
      ⟨folderOf dir, dir, name⟩ where
  target := pathOf_concat dir name
  isName := hs.isName_getLast hl
  reaches := hs.reaches_folderOf (by simpa using hs.parent hl (by simp))

/-- A file in a tree is where a replacement can find it. -/
theorem IsTree.site (hs : s.IsTree) (bytes : ByteArray) (mode : Option Nat) {process : Nat}
    {dir : Location} {name : String} (hl : s.node? (dir ++ [name]) = some (.file f))
    (htemporary : s.node? (temporaryOf process (dir ++ [name])) = none)
    (hlock : ∀ target, s.node? (lockOf (dir ++ [name])) ≠ some (.link target)) :
    Replacement.Site ⟨pathOf (dir ++ [name]), bytes, mode, process⟩ s
      ⟨folderOf dir, dir, name⟩ where
  toConcerns := hs.concerns bytes mode process hl
  target_ne_link target := by simp [Replacement.Spot.target, hl]
  lock_ne_link target := by simpa [Replacement.Spot.lock] using hlock target
  temporary := by simpa [Replacement.Spot.temporary] using htemporary

/-- To write to a path that leads to a file is to replace that file. -/
theorem write_eq_finish {process : Nat} (bytes : ByteArray)
    (hfind : s.find? path.text = .ok (l, .file f)) :
    s.write process path bytes =
      Replacement.finish ⟨pathOf l, bytes, some f.mode, process⟩ s .openLock := by
  simp only [write, makeParent_eq_self (find?_eq_ok_iff.1 hfind).1, replacement, hfind]

theorem ne_nil_of_file (hl : s.node? l = some (.file f)) : l ≠ [] := by
  rintro rfl
  rw [node?_nil] at hl
  cases hl

/-- What becomes of a file, found by its path, that is written by a process. -/
theorem write_found (hs : s.IsTree) {process : Nat} (bytes : ByteArray)
    (hfind : s.find? path.text = .ok (l, .file f))
    (htemporary : s.node? (temporaryOf process l) = none)
    (hlock : ∀ target, s.node? (lockOf l) ≠ some (.link target)) :
    (∃ e, s.write process path bytes = (s, .error e)) ∨
      (∃ e, s.write process path bytes = (s.withLock l, .error e)) ∨
      s.write process path bytes =
        ((s.withLock l).put l (.file ⟨bytes, f.mode, false⟩), .ok ()) := by
  have hl := (find?_eq_ok_iff.1 hfind).2
  obtain ⟨dir, name, rfl⟩ := (List.eq_nil_or_concat' l).resolve_left (ne_nil_of_file hl)
  have hsite := hs.site bytes (some f.mode) hl htemporary hlock
  have hprogress := Replacement.progress_finish hsite .openLock
  rw [← write_eq_finish bytes hfind] at hprogress
  generalize s.write process path bytes = written at hprogress ⊢
  obtain ⟨s', result⟩ := written
  cases hprogress with
  | unchanged => exact .inl ⟨_, rfl⟩
  | failed => exact .inr (.inl ⟨_, rfl⟩)
  | replaced => exact .inr (.inr rfl)

end BlockEdit.Store
