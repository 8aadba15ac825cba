import BlockEdit.Proofs.Text.Overlap
import BlockEdit.Proofs.Text.Parts

/-!
# The bytes of a text

In UTF-8 a character is a first byte and some bytes that go on with it, and no byte is of both
kinds. So the byte at an offset tells whether a character begins there (`isBoundary_of_first`), and
where the bytes of a text stand among those of another one, at whatever offset, its characters
stand there (`occursAt_iff_prefix_drop`).

* `encode`, `bytes`: the bytes of characters and of a text;
* `exists_utf8EncodeChar`: the first byte of a character, and the others;
* `encode_prefix_iff`: a text begins with the bytes of some characters when it begins with them.
-/

namespace BlockEdit.Text

variable {c : Char} {b : UInt8} {n : Nat} {pat cs front rest : List Char}

/-- The bytes of some characters in UTF-8. -/
def encode (cs : List Char) : List UInt8 := cs.flatMap String.utf8EncodeChar

/-- The bytes of a text in UTF-8. -/
def bytes (s : String) : List UInt8 := s.toUTF8.data.toList

@[simp] theorem encode_nil : encode [] = [] := rfl

@[simp] theorem encode_cons (c : Char) (cs : List Char) :
    encode (c :: cs) = String.utf8EncodeChar c ++ encode cs :=
  List.flatMap_cons

@[simp] theorem encode_append (cs ds : List Char) : encode (cs ++ ds) = encode cs ++ encode ds :=
  List.flatMap_append

theorem utf8Encode_eq (cs : List Char) : cs.utf8Encode = (encode cs).toByteArray := rfl

theorem bytes_eq (s : String) : bytes s = encode s.toList := by
  rw [bytes, String.toUTF8_eq_toByteArray, ← String.utf8Encode_toList, utf8Encode_eq,
    List.data_toByteArray]

@[simp] theorem length_encode (cs : List Char) : (encode cs).length = byteSize cs := by
  rw [← size_utf8Encode, utf8Encode_eq, List.size_toByteArray]

theorem encode_ne_nil (h : cs ≠ []) : encode cs ≠ [] := by
  intro hnil
  have hsize := byteSize_pos h
  rw [← length_encode, hnil] at hsize
  exact Nat.lt_irrefl 0 hsize

theorem drop_encode (front rest : List Char) :
    (encode (front ++ rest)).drop (byteSize front) = encode rest := by
  rw [encode_append, ← length_encode, List.drop_left]

/-! ### First bytes -/

/-- A character has one first byte, and other bytes behind it. -/
theorem exists_utf8EncodeChar (c : Char) : ∃ b bs, String.utf8EncodeChar c = b :: bs ∧
    b.IsUTF8FirstByte ∧ ∀ x ∈ bs, ¬x.IsUTF8FirstByte := by
  cases h : String.utf8EncodeChar c with
  | nil => exact absurd h String.utf8EncodeChar_ne_nil
  | cons b bs =>
    have hfirst : ∀ i (hi : i < (b :: bs).length),
        (b :: bs)[i].IsUTF8FirstByte ↔ i = 0 := by
      rw [← h]
      exact fun i hi => UInt8.isUTF8FirstByte_getElem_utf8EncodeChar
    refine ⟨b, bs, rfl, (hfirst 0 (Nat.zero_lt_succ _)).2 rfl, fun x hx => ?_⟩
    obtain ⟨i, hi, rfl⟩ := List.getElem_of_mem hx
    exact mt (hfirst (i + 1) (Nat.succ_lt_succ hi)).1 (Nat.succ_ne_zero i)

/-- A text that is not empty begins with a first byte. -/
theorem exists_encode_eq_cons (h : cs ≠ []) : ∃ b bs, encode cs = b :: bs ∧ b.IsUTF8FirstByte := by
  obtain ⟨c, cs, rfl⟩ := List.exists_cons_of_ne_nil h
  obtain ⟨b, bs, hc, hb, -⟩ := exists_utf8EncodeChar c
  exact ⟨b, bs ++ encode cs, by rw [encode_cons, hc, List.cons_append], hb⟩

/-- A character begins where a first byte stands. -/
theorem isBoundary_of_first (h : (encode cs)[n]? = some b) (hb : b.IsUTF8FirstByte) :
    IsBoundary n cs := by
  induction cs generalizing n with
  | nil => cases h
  | cons c cs ih =>
    by_cases hn : n < c.utf8Size
    · -- Inside a character, only its start has a first byte.
      obtain ⟨b', bs, hc, -, hbs⟩ := exists_utf8EncodeChar c
      rw [encode_cons, List.getElem?_append_left (by rwa [String.length_utf8EncodeChar]), hc] at h
      cases n with
      | zero => exact ⟨[], c :: cs, rfl, rfl⟩
      | succ n =>
        rw [List.getElem?_cons_succ] at h
        exact absurd hb (hbs b (List.mem_of_getElem? h))
    · rw [encode_cons, List.getElem?_append_right (by rw [String.length_utf8EncodeChar]; omega),
        String.length_utf8EncodeChar] at h
      obtain ⟨front, rest, rfl, hfront⟩ := ih h
      exact ⟨c :: front, rest, rfl, by rw [byteSize_cons, hfront]; omega⟩

/-! ### One text in another -/

theorem encode_prefix_iff : encode pat <+: encode cs ↔ pat <+: cs := by
  constructor
  · rintro ⟨bs, hbs⟩
    have happend : pat.utf8Encode ++ bs.toByteArray = cs.utf8Encode := by
      rw [utf8Encode_eq, utf8Encode_eq, ← hbs, List.toByteArray_append]
    exact List.isPrefix_of_utf8Encode_append_eq_utf8Encode _ happend
  · rintro ⟨rest, rfl⟩
    exact ⟨encode rest, (encode_append pat rest).symm⟩

theorem after?_eq_none_iff : after? pat cs = none ↔ ¬encode pat <+: encode cs := by
  rw [encode_prefix_iff, Option.eq_none_iff_forall_ne_some]
  refine ⟨fun h hpre => ?_, fun h rest hrest => h ⟨rest, (after?_eq_some hrest).symm⟩⟩
  obtain ⟨rest, rfl⟩ := hpre
  exact h rest (after?_append pat rest)

/-- The bytes of a text stand among those of another one just where its characters stand, and so
they begin and end between two characters. -/
theorem occursAt_iff_prefix_drop (hp : pat ≠ []) :
    OccursAt pat n cs ↔ encode pat <+: (encode cs).drop n := by
  constructor
  · rintro ⟨front, rest, rfl, rfl⟩
    rw [drop_encode, encode_append]
    exact List.prefix_append _ _
  · intro h
    obtain ⟨b, bs, hpat, hb⟩ := exists_encode_eq_cons hp
    have hhead : (encode cs)[n]? = some b := by
      obtain ⟨tail, htail⟩ := h
      rw [← Nat.add_zero n, ← List.getElem?_drop, ← htail, hpat]
      rfl
    obtain ⟨front, rest, rfl, rfl⟩ := isBoundary_of_first hhead hb
    rw [drop_encode, encode_prefix_iff] at h
    obtain ⟨rest, rfl⟩ := h
    exact ⟨front, rest, rfl, rfl⟩

/-- An occurrence ends between two characters. -/
theorem OccursAt.isBoundary_stop (h : OccursAt pat n cs) : IsBoundary (n + byteSize pat) cs := by
  obtain ⟨front, rest, rfl, rfl⟩ := h
  exact ⟨front ++ pat, rest, (List.append_assoc _ _ _).symm, byteSize_append front pat⟩

end BlockEdit.Text
