import BlockEdit.Proofs.Text.Encoding

/-!
# Searching the bytes of a text

A search that compares bytes, and moves on by one byte where it finds nothing, comes to offsets
inside characters. It finds nothing there, since a text that is looked for begins with a first byte
(`byteMatchesFrom_skip`). So its matches are those of the search from character to character
(`byteMatches_eq`).
-/

namespace BlockEdit.Text

/-- The offsets at which the bytes `pat` stand among other bytes, the first of which lies at
`offset`: from left to right, and without overlap. -/
def byteMatchesFrom (pat : List UInt8) (hp : pat ≠ []) (offset : Nat) (bs : List UInt8) :
    List Nat :=
  if _h : pat <+: bs then
    offset :: byteMatchesFrom pat hp (offset + pat.length) (bs.drop pat.length)
  else
    match bs with
    | [] => []
    | _ :: bs => byteMatchesFrom pat hp (offset + 1) bs
termination_by bs.length
decreasing_by
  · have hpos := List.length_pos_iff.2 hp
    have hle := _h.length_le
    rw [List.length_drop]
    omega
  · exact Nat.lt_succ_self _

/-- The offsets at which a search of the bytes of a text finds those of a marker. -/
def byteMatches (marker text : String) : List Nat :=
  if hp : bytes marker = [] then [] else byteMatchesFrom (bytes marker) hp 0 (bytes text)

section Search

variable {pat : List UInt8} {hp : pat ≠ []} {offset : Nat} {x : UInt8} {bs : List UInt8}

theorem byteMatchesFrom_append (hp : pat ≠ []) (offset : Nat) (bs : List UInt8) :
    byteMatchesFrom pat hp offset (pat ++ bs) =
      offset :: byteMatchesFrom pat hp (offset + pat.length) bs := by
  rw [byteMatchesFrom, dif_pos (List.prefix_append pat bs), List.drop_left]

theorem byteMatchesFrom_cons (h : ¬pat <+: x :: bs) :
    byteMatchesFrom pat hp offset (x :: bs) = byteMatchesFrom pat hp (offset + 1) bs := by
  rw [byteMatchesFrom, dif_neg h]

theorem byteMatchesFrom_nil : byteMatchesFrom pat hp offset [] = [] := by
  have h : ¬pat <+: [] := fun hpre => hp (List.prefix_nil.1 hpre)
  rw [byteMatchesFrom, dif_neg h]

/-- Nothing that begins with a first byte is found inside a character. -/
theorem byteMatchesFrom_skip {b : UInt8} {tail skipped : List UInt8} (hpat : pat = b :: tail)
    (hb : b.IsUTF8FirstByte) (hskipped : ∀ x ∈ skipped, ¬x.IsUTF8FirstByte) :
    byteMatchesFrom pat hp offset (skipped ++ bs) =
      byteMatchesFrom pat hp (offset + skipped.length) bs := by
  induction skipped generalizing offset with
  | nil => rfl
  | cons x skipped ih =>
    obtain ⟨hx, hskipped⟩ := List.forall_mem_cons.1 hskipped
    have hno : ¬pat <+: x :: (skipped ++ bs) := by
      rw [hpat, List.cons_prefix_cons]
      rintro ⟨rfl, -⟩
      exact hx hb
    rw [List.cons_append, byteMatchesFrom_cons hno, ih hskipped, List.length_cons, Nat.add_assoc,
      Nat.add_comm 1]

end Search

/-- The search from byte to byte finds what the search from character to character does. -/
theorem byteMatchesFrom_encode {pat : List Char} (hp : pat ≠ []) (offset : Nat) (cs : List Char) :
    byteMatchesFrom (encode pat) (encode_ne_nil hp) offset (encode cs) =
      occurrencesFrom pat hp offset cs := by
  obtain ⟨b, tail, hpat, hb⟩ := exists_encode_eq_cons hp
  fun_induction occurrencesFrom pat hp offset cs with
  | case1 offset cs rest hmatch ih =>
    rw [after?_eq_some hmatch, encode_append, byteMatchesFrom_append, length_encode, ih]
  | case2 => exact byteMatchesFrom_nil
  | case3 offset c cs hmatch ih =>
    obtain ⟨x, skipped, hc, -, hskipped⟩ := exists_utf8EncodeChar c
    have hno := after?_eq_none_iff.1 hmatch
    have hsize : 1 + skipped.length = c.utf8Size := by
      rw [← String.length_utf8EncodeChar, hc, List.length_cons, Nat.add_comm]
    rw [encode_cons, hc, List.cons_append] at hno
    rw [encode_cons, hc, List.cons_append, byteMatchesFrom_cons hno,
      byteMatchesFrom_skip hpat hb hskipped, Nat.add_assoc, hsize, ih]

theorem byteMatches_eq (marker text : String) :
    byteMatches marker text = occurrences marker text := by
  rw [byteMatches, occurrences]
  by_cases hp : marker.toList = []
  · rw [dif_pos hp, dif_pos (by rw [bytes_eq, hp, encode_nil])]
  · rw [dif_neg hp, dif_neg (by rw [bytes_eq]; exact encode_ne_nil hp)]
    simp only [bytes_eq]
    exact byteMatchesFrom_encode hp 0 text.toList

end BlockEdit.Text
