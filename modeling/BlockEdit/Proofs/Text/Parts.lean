import BlockEdit.Text.Bytes
import Mathlib.Data.List.Infix
import Mathlib.Tactic.Common

/-!
# Parts of a text

A text that is cut between two characters is cut at a byte offset, and its UTF-8 form is cut at the
same offset.

* `eq_of_byteSize_eq`, `exists_between`: two cuts of one text are compared by their offsets;
* `extract_of_split`: the bytes of a part of a text are the UTF-8 form of that part;
* `exists_split_of_extract_eq`: a text whose first bytes spell some characters begins with these
  characters.
-/

namespace BlockEdit.Text

/-! ### Two cuts of one text -/

/-- Texts of one size in front of the same text are equal. -/
theorem eq_of_byteSize_eq {a b a' b' : List Char} (h : a ++ b = a' ++ b')
    (hsize : byteSize a = byteSize a') : a = a' ∧ b = b' := by
  have hcut := cutAt?_append a b
  rw [h, hsize, cutAt?_append] at hcut
  simp_all

/-- Of two texts in front of parts of one text, the larger one begins with the other. -/
theorem exists_between {a b a' b' : List Char} (h : a ++ b = a' ++ b')
    (hsize : byteSize a ≤ byteSize a') : ∃ mid, a' = a ++ mid ∧ b = mid ++ b' := by
  rcases List.append_eq_append_iff.1 h with ⟨mid, rfl, rfl⟩ | ⟨mid, rfl, rfl⟩
  · exact ⟨mid, rfl, rfl⟩
  · rw [byteSize_append] at hsize
    obtain rfl := byteSize_eq_zero.1 (by omega : byteSize mid = 0)
    exact ⟨[], by simp, by simp⟩

theorem IsBoundary.le {n : Nat} {cs : List Char} (h : IsBoundary n cs) : n ≤ byteSize cs := by
  obtain ⟨front, rest, rfl, rfl⟩ := h
  rw [byteSize_append]
  exact Nat.le_add_right _ _

/-! ### The bytes of a part -/

section Bytes

variable {s s' : String} {front middle rest : List Char}

theorem size_utf8Encode (cs : List Char) : cs.utf8Encode.size = byteSize cs := by
  rw [byteSize_eq_utf8ByteSize, ← String.toByteArray_ofList, String.size_toByteArray]

theorem toUTF8_of_split (h : s.toList = front ++ rest) :
    s.toUTF8 = front.utf8Encode ++ rest.utf8Encode := by
  rw [String.toUTF8_eq_toByteArray, ← String.utf8Encode_toList, h, List.utf8Encode_append]

/-- The bytes between two cuts of a text are those of the characters between them. -/
theorem extract_of_split (h : s.toList = front ++ (middle ++ rest)) :
    s.toUTF8.extract (byteSize front) (byteSize front + byteSize middle) =
      (String.ofList middle).toUTF8 := by
  have hskip := @ByteArray.extract_append_size_add front.utf8Encode
    (middle.utf8Encode ++ rest.utf8Encode) 0 (byteSize middle)
  rw [Nat.add_zero, size_utf8Encode] at hskip
  rw [toUTF8_of_split h, List.utf8Encode_append, hskip,
    ByteArray.extract_append_eq_left (size_utf8Encode middle).symm,
    String.toUTF8_eq_toByteArray, String.toByteArray_ofList]

theorem extract_of_split_front (h : s.toList = front ++ rest) :
    s.toUTF8.extract 0 (byteSize front) = (String.ofList front).toUTF8 := by
  rw [toUTF8_of_split h, ByteArray.extract_append_eq_left (size_utf8Encode front).symm,
    String.toUTF8_eq_toByteArray, String.toByteArray_ofList]

theorem extract_of_split_rest (h : s.toList = front ++ rest) :
    s.toUTF8.extract (byteSize front) s.utf8ByteSize = (String.ofList rest).toUTF8 := by
  have hsize : s.utf8ByteSize = byteSize front + byteSize rest := by
    rw [← byteSize_toList, h, byteSize_append]
  rw [hsize]
  exact extract_of_split (by rw [h, List.append_nil])

/-- A text that begins with the bytes of some characters begins with these characters. -/
theorem exists_split_of_extract_eq (h : s.toList = front ++ rest)
    (heq : s'.toUTF8.extract 0 (byteSize front) = s.toUTF8.extract 0 (byteSize front)) :
    ∃ rest', s'.toList = front ++ rest' := by
  have hfront : s'.toUTF8.extract 0 (byteSize front) = front.utf8Encode := by
    rw [heq, extract_of_split_front h, String.toUTF8_eq_toByteArray, String.toByteArray_ofList]
  have hsize : byteSize front ≤ s'.toUTF8.size := by
    have := congrArg ByteArray.size hfront
    rw [ByteArray.size_extract, size_utf8Encode] at this
    omega
  have hwhole : s'.toUTF8 = front.utf8Encode ++
      s'.toUTF8.extract (byteSize front) s'.toUTF8.size := by
    rw [← hfront, ← ByteArray.extract_eq_extract_append_extract _ (Nat.zero_le _) hsize,
      ByteArray.extract_zero_size]
  rw [String.toUTF8_eq_toByteArray, ← String.utf8Encode_toList] at hwhole
  obtain ⟨rest', hrest⟩ := List.isPrefix_of_utf8Encode_append_eq_utf8Encode _ hwhole.symm
  exact ⟨rest', hrest.symm⟩

end Bytes

end BlockEdit.Text
