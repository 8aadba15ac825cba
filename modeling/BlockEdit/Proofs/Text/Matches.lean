import BlockEdit.Document.Anchor
import BlockEdit.Proofs.Text.Parts

/-!
# The matches of a marker

`occurrences` reads a text from left to right and goes on behind each match, so what it finds up to
a match depends on the text up to the end of that match only.

* `exists_split_of_mem_occurrencesFrom`: the text holds the pattern at each offset that is listed;
* `getElem?_occurrencesFrom_congr`: a match keeps its number when the text behind it is another one;
* `Anchor.exists_split_of_find`, `Anchor.find_congr` and `Anchor.find_of_front`: the same for the
  anchor of a document.
-/

namespace BlockEdit

namespace Text

variable {pat cs front rest : List Char} {hp : pat ≠ []} {offset n k : Nat}

theorem occurrencesFrom_of_match (h : after? pat cs = some rest) :
    occurrencesFrom pat hp offset cs =
      offset :: occurrencesFrom pat hp (offset + byteSize pat) rest := by
  rw [occurrencesFrom]
  split
  · simp_all
  · simp_all

theorem occurrencesFrom_cons {c : Char} (h : after? pat (c :: cs) = none) :
    occurrencesFrom pat hp offset (c :: cs) =
      occurrencesFrom pat hp (offset + c.utf8Size) cs := by
  rw [occurrencesFrom]
  split
  · simp_all
  · rfl

@[simp] theorem occurrencesFrom_nil : occurrencesFrom pat hp offset [] = [] := by
  have h := after?_nil hp
  rw [occurrencesFrom]
  split <;> simp_all

theorem exists_split_of_mem_occurrencesFrom (h : n ∈ occurrencesFrom pat hp offset cs) :
    ∃ front rest, cs = front ++ (pat ++ rest) ∧ n = offset + byteSize front := by
  fun_induction occurrencesFrom pat hp offset cs with
  | case1 offset cs rest hmatch ih =>
    obtain rfl := after?_eq_some hmatch
    rcases List.mem_cons.1 h with rfl | h
    · exact ⟨[], rest, rfl, by simp⟩
    · obtain ⟨front, rest, rfl, rfl⟩ := ih h
      exact ⟨pat ++ front, rest, by simp, by simp; omega⟩
  | case2 => simp at h
  | case3 offset c cs hmatch ih =>
    obtain ⟨front, rest, rfl, rfl⟩ := ih h
    exact ⟨c :: front, rest, by simp, by simp; omega⟩

/-- Whether a text begins with a pattern is decided by as many of its characters as the pattern
has. -/
theorem after?_append_congr {a b : List Char} (hlength : pat.length ≤ a.length)
    (h : after? pat (a ++ b) = none) (b' : List Char) : after? pat (a ++ b') = none := by
  rw [Option.eq_none_iff_forall_ne_some] at h ⊢
  intro rest hrest
  have hpre : pat <+: a := by
    have hpat : pat <+: a ++ b' := ⟨rest, (after?_eq_some hrest).symm⟩
    exact List.prefix_of_prefix_length_le hpat (List.prefix_append a b') hlength
  obtain ⟨tail, rfl⟩ := hpre
  exact h (tail ++ b) (by rw [List.append_assoc, after?_append])

/-- A text that breaks off begins with no pattern that the whole text does not begin with. -/
theorem after?_eq_none_of_append {a b : List Char} (h : after? pat (a ++ b) = none) :
    after? pat a = none := by
  rw [Option.eq_none_iff_forall_ne_some] at h ⊢
  intro rest hrest
  exact h (rest ++ b) (by rw [after?_eq_some hrest, List.append_assoc, after?_append])

/-- A match has the same number in every text that goes on differently behind it. -/
theorem getElem?_occurrencesFrom_congr (rest' : List Char)
    (h : (occurrencesFrom pat hp offset (front ++ (pat ++ rest)))[k]? =
      some (offset + byteSize front)) :
    (occurrencesFrom pat hp offset (front ++ (pat ++ rest')))[k]? =
      some (offset + byteSize front) := by
  generalize hcs : front ++ (pat ++ rest) = cs at h
  fun_induction occurrencesFrom pat hp offset cs generalizing front k with
  | case1 offset cs tail hmatch ih =>
    cases k with
    | zero =>
      have hfront : front = [] := byteSize_eq_zero.1 (by simpa using h)
      subst hfront
      rw [List.nil_append, occurrencesFrom_of_match (after?_append pat rest')]
      simp
    | succ k =>
      rw [List.getElem?_cons_succ] at h
      -- The earlier match lies in front of the later one, so both have their places in `front`.
      obtain ⟨front', tail', rfl, hsize⟩ :=
        exists_split_of_mem_occurrencesFrom (List.mem_of_getElem? h)
      rw [after?_eq_some hmatch, ← List.append_assoc pat front'] at hcs
      obtain ⟨rfl, hrest⟩ := eq_of_byteSize_eq hcs (by rw [byteSize_append]; omega)
      rw [hsize] at h
      rw [List.append_assoc, occurrencesFrom_of_match (after?_append pat _),
        List.getElem?_cons_succ, hsize]
      exact ih (by rw [← hrest]) h
  | case2 offset hmatch => simp at h
  | case3 offset c cs hmatch ih =>
    cases front with
    | nil =>
      rw [List.nil_append] at hcs
      rw [← hcs, after?_append] at hmatch
      cases hmatch
    | cons d front =>
      obtain ⟨rfl, rfl⟩ : d = c ∧ front ++ (pat ++ rest) = cs := by simpa using hcs
      have hno : after? pat (d :: (front ++ (pat ++ rest'))) = none := by
        have hlength : pat.length ≤ (d :: (front ++ pat)).length := by simp; omega
        have hshort : after? pat ((d :: (front ++ pat)) ++ rest) = none := by simpa using hmatch
        simpa using after?_append_congr hlength hshort rest'
      rw [byteSize_cons, ← Nat.add_assoc] at h ⊢
      rw [List.cons_append, occurrencesFrom_cons hno]
      exact ih rfl h

end Text

namespace Anchor

variable {document document' marker : String} {occurrence start : Nat} {front rest : List Char}

theorem find_eq_ok_iff :
    find document marker occurrence = .ok start ↔ ∃ k, occurrence = k + 1 ∧
      ∃ hm : marker.toList ≠ [],
        (Text.occurrencesFrom marker.toList hm 0 document.toList)[k]? = some start := by
  unfold find
  cases occurrence with
  | zero => simp
  | succ k =>
    by_cases hm : marker.toList = []
    · simp [hm]
    · rw [if_neg (by simp), if_neg hm]
      simp only [Text.occurrences, dif_neg hm, Nat.add_sub_cancel]
      split <;> simp_all

/-- A document holds the marker at the anchor that is found. -/
theorem exists_split_of_find (h : find document marker occurrence = .ok start) :
    ∃ front rest, document.toList = front ++ (marker.toList ++ rest) ∧
      Text.byteSize front = start := by
  obtain ⟨k, -, hm, hk⟩ := find_eq_ok_iff.1 h
  obtain ⟨front, rest, hdocument, rfl⟩ :=
    Text.exists_split_of_mem_occurrencesFrom (List.mem_of_getElem? hk)
  exact ⟨front, rest, hdocument, by simp⟩

/-- An anchor stays where it is when the document behind its marker becomes another one. -/
theorem find_congr {rest' : List Char}
    (hdocument : document.toList = front ++ (marker.toList ++ rest))
    (hdocument' : document'.toList = front ++ (marker.toList ++ rest'))
    (h : find document marker occurrence = .ok (Text.byteSize front)) :
    find document' marker occurrence = .ok (Text.byteSize front) := by
  obtain ⟨k, hk, hm, h⟩ := find_eq_ok_iff.1 h
  refine find_eq_ok_iff.2 ⟨k, hk, hm, ?_⟩
  rw [← Nat.zero_add (Text.byteSize front)] at h ⊢
  rw [hdocument] at h
  rw [hdocument']
  exact Text.getElem?_occurrencesFrom_congr rest' h

/-- An anchor stays where it is when the document is changed behind its match. -/
theorem find_of_front {rest' : List Char} (hdocument : document.toList = front ++ rest)
    (hdocument' : document'.toList = front ++ rest')
    (h : find document marker occurrence = .ok start)
    (hle : start + marker.utf8ByteSize ≤ Text.byteSize front) :
    find document' marker occurrence = .ok start := by
  obtain ⟨before, behind, hsplit, rfl⟩ := exists_split_of_find h
  have hmatch : document.toList = (before ++ marker.toList) ++ behind := by
    rw [hsplit, List.append_assoc]
  obtain ⟨middle, rfl, -⟩ := Text.exists_between (hmatch.symm.trans hdocument)
    (by rwa [Text.byteSize_append, Text.byteSize_toList])
  have hsplit' : document'.toList = before ++ (marker.toList ++ (middle ++ rest')) := by
    rw [hdocument', List.append_assoc, List.append_assoc]
  exact find_congr hsplit hsplit' h

end Anchor

end BlockEdit
