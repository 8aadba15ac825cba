import BlockEdit.Proofs.Text.Overlap
import Mathlib.Data.Finset.Card
import Mathlib.Data.List.Pairwise
import Mathlib.Order.Bounds.Basic

/-!
# The greedy search

The search for a marker takes the first occurrence that it comes to and goes on behind it. Each
occurrence of the marker begins inside one of these matches (`exists_match_of_occursAt`), and two
occurrences that begin inside one match overlap. So the search passes over nothing between its
matches, and no choice of occurrences without overlap is larger than the one it makes.

* `IsPacking`: a choice of occurrences without overlap;
* `isGreatest_card_isPacking`: the matches are a largest one;
* `Anchor.find_add_le`, `Anchor.exists_find_iff`, `Anchor.exists_find_of_occursAt`: the same facts
  about the numbers of the anchors;
* `Anchor.find_greedy`: what the anchors of a marker are.
-/

namespace BlockEdit

namespace Text

/-- Offsets at which a text goes on with `pat`, no two of which are closer than `pat` is long. -/
structure IsPacking (pat cs : List Char) (s : Finset Nat) : Prop where
  occursAt : ∀ n ∈ s, OccursAt pat n cs
  apart : ∀ m ∈ s, ∀ n ∈ s, m ≠ n → m + byteSize pat ≤ n ∨ n + byteSize pat ≤ m

section Matches

variable {pat cs : List Char} {hp : pat ≠ []} {offset n i : Nat} {s : Finset Nat}

theorem occursAt_of_mem (h : n ∈ occurrencesFrom pat hp 0 cs) : OccursAt pat n cs := by
  obtain ⟨front, rest, hcs, hn⟩ := exists_split_of_mem_occurrencesFrom h
  exact ⟨front, rest, hcs, by omega⟩

/-- Each match ends in front of the next ones. -/
theorem pairwise_occurrencesFrom (hp : pat ≠ []) (offset : Nat) (cs : List Char) :
    (occurrencesFrom pat hp offset cs).Pairwise fun m n => m + byteSize pat ≤ n := by
  fun_induction occurrencesFrom pat hp offset cs with
  | case1 offset cs rest hmatch ih =>
    refine List.pairwise_cons.2 ⟨fun n hn => ?_, ih⟩
    obtain ⟨front, tail, -, rfl⟩ := exists_split_of_mem_occurrencesFrom hn
    omega
  | case2 => exact List.Pairwise.nil
  | case3 offset c cs hmatch ih => exact ih

/-- Each occurrence begins inside a match. -/
theorem exists_match_of_occursAt (hp : pat ≠ []) (offset : Nat) (h : OccursAt pat i cs) :
    ∃ n ∈ occurrencesFrom pat hp offset cs, n ≤ offset + i ∧ offset + i < n + byteSize pat := by
  -- An occurrence that does not begin in the first match lies in what is left behind that match.
  fun_induction occurrencesFrom pat hp offset cs generalizing i with
  | case1 offset cs rest hmatch ih =>
    obtain rfl := after?_eq_some hmatch
    by_cases hi : i < byteSize pat
    · exact ⟨offset, List.mem_cons_self, by omega, by omega⟩
    · obtain ⟨front, tail, hcs, rfl⟩ := h
      obtain ⟨front, rfl, hrest⟩ := exists_between hcs (not_lt.1 hi)
      obtain ⟨n, hn, hle, hlt⟩ := ih ⟨front, tail, hrest, rfl⟩
      rw [byteSize_append, ← Nat.add_assoc]
      exact ⟨n, List.mem_cons_of_mem _ hn, hle, hlt⟩
  | case2 offset hmatch =>
    obtain ⟨front, tail, hcs, -⟩ := h
    simp [hp] at hcs
  | case3 offset c cs hmatch ih =>
    obtain ⟨front, tail, hcs, rfl⟩ := h
    cases front with
    | nil =>
      rw [hcs, List.nil_append, after?_append] at hmatch
      cases hmatch
    | cons d front =>
      obtain ⟨rfl, rfl⟩ : c = d ∧ cs = front ++ (pat ++ tail) := by simpa using hcs
      rw [byteSize_cons, ← Nat.add_assoc]
      exact ih ⟨front, tail, rfl, rfl⟩

/-- A packing has at most one occurrence in each match. -/
theorem IsPacking.card_le (hp : pat ≠ []) (h : IsPacking pat cs s) :
    s.card ≤ (occurrencesFrom pat hp 0 cs).length := by
  have hmatch : ∀ i, ∃ n, i ∈ s →
      n ∈ occurrencesFrom pat hp 0 cs ∧ n ≤ i ∧ i < n + byteSize pat := by
    intro i
    by_cases hi : i ∈ s
    · obtain ⟨n, hn, hle, hlt⟩ := exists_match_of_occursAt hp 0 (h.occursAt i hi)
      exact ⟨n, fun _ => ⟨hn, by omega, by omega⟩⟩
    · exact ⟨0, fun h => absurd h hi⟩
  choose f hf using hmatch
  calc s.card ≤ (occurrencesFrom pat hp 0 cs).toFinset.card := by
        refine Finset.card_le_card_of_injOn f (fun i hi => ?_) fun i hi j hj hij => ?_
        · exact List.mem_toFinset.2 (hf i hi).1
        · -- Two of them in one match would be closer than the pattern is long.
          by_contra hne
          have := hf i hi
          have := hf j hj
          have := h.apart i hi j hj hne
          omega
    _ ≤ (occurrencesFrom pat hp 0 cs).length := List.toFinset_card_le _

theorem nodup_occurrencesFrom (hp : pat ≠ []) (offset : Nat) (cs : List Char) :
    (occurrencesFrom pat hp offset cs).Nodup := by
  have hpos := byteSize_pos hp
  refine (pairwise_occurrencesFrom hp offset cs).imp fun h => ?_
  omega

/-- The matches themselves are a packing. -/
theorem isPacking_toFinset (hp : pat ≠ []) (cs : List Char) :
    IsPacking pat cs (occurrencesFrom pat hp 0 cs).toFinset := by
  refine ⟨fun n hn => occursAt_of_mem (List.mem_toFinset.1 hn), fun m hm n hn hne => ?_⟩
  -- The list of matches has an order and the set has none, so both directions are taken together.
  have : Std.Symm fun m n : Nat => m + byteSize pat ≤ n ∨ n + byteSize pat ≤ m :=
    ⟨fun _ _ => Or.symm⟩
  have hpairs := (pairwise_occurrencesFrom hp 0 cs).imp
    (Or.inl : ∀ {m n : Nat}, m + byteSize pat ≤ n → m + byteSize pat ≤ n ∨ n + byteSize pat ≤ m)
  exact hpairs.forall (List.mem_toFinset.1 hm) (List.mem_toFinset.1 hn) hne

/-- No packing is larger than the one that the search finds. -/
theorem isGreatest_card_isPacking (hp : pat ≠ []) (cs : List Char) :
    IsGreatest {c | ∃ s, IsPacking pat cs s ∧ s.card = c} (occurrencesFrom pat hp 0 cs).length := by
  constructor
  · refine ⟨_, isPacking_toFinset hp cs, ?_⟩
    exact List.toFinset_card_of_nodup (nodup_occurrencesFrom hp 0 cs)
  · rintro c ⟨s, hs, rfl⟩
    exact hs.card_le hp

end Matches

end Text

namespace Anchor

open Text (OccursAt IsPacking)

variable {document marker : String} {i k k' n n' : Nat}

theorem count_eq (hm : marker.toList ≠ []) :
    count document marker = (Text.occurrencesFrom marker.toList hm 0 document.toList).length := by
  rw [count, Text.occurrences, dif_neg hm]

/-- A match ends in front of the matches with greater numbers. -/
theorem find_add_le (h : find document marker k = .ok n) (h' : find document marker k' = .ok n')
    (hlt : k < k') : n + marker.utf8ByteSize ≤ n' := by
  obtain ⟨k, rfl, hm, hk⟩ := find_eq_ok_iff.1 h
  obtain ⟨k', rfl, _, hk'⟩ := find_eq_ok_iff.1 h'
  obtain ⟨hlength, rfl⟩ := List.getElem?_eq_some_iff.1 hk
  obtain ⟨hlength', rfl⟩ := List.getElem?_eq_some_iff.1 hk'
  rw [← Text.byteSize_toList]
  exact List.pairwise_iff_getElem.1 (Text.pairwise_occurrencesFrom hm 0 document.toList) _ _
    hlength hlength' (by omega)

theorem find_le (h : find document marker k = .ok n) (h' : find document marker k' = .ok n')
    (hle : k ≤ k') : n ≤ n' := by
  rcases hle.eq_or_lt with rfl | hlt
  · exact (Except.ok.inj (h.symm.trans h')).le
  · have := find_add_le h h' hlt
    omega

/-- The matches are numbered from one to their number. -/
theorem exists_find_iff (hm : marker.toList ≠ []) :
    (∃ n, find document marker k = .ok n) ↔ 1 ≤ k ∧ k ≤ count document marker := by
  rw [count_eq hm]
  constructor
  · rintro ⟨n, h⟩
    obtain ⟨k, rfl, _, hk⟩ := find_eq_ok_iff.1 h
    obtain ⟨hlength, -⟩ := List.getElem?_eq_some_iff.1 hk
    omega
  · rintro ⟨hpos, hle⟩
    obtain ⟨k, rfl⟩ : ∃ j, k = j + 1 := ⟨k - 1, by omega⟩
    exact ⟨_, find_eq_ok_iff.2 ⟨k, rfl, hm, List.getElem?_eq_getElem (by omega)⟩⟩

/-- In front of a match there is one with each smaller number. -/
theorem exists_find_of_le (h : find document marker k' = .ok n') (hpos : 1 ≤ k) (hle : k ≤ k') :
    ∃ n, find document marker k = .ok n := by
  obtain ⟨-, -, hm, -⟩ := find_eq_ok_iff.1 h
  exact (exists_find_iff hm).2 ⟨hpos, hle.trans ((exists_find_iff hm).1 ⟨n', h⟩).2⟩

theorem find_of_count_lt (hm : marker.toList ≠ []) (h : count document marker < k) :
    find document marker k = .error (.markerNotFound marker k (count document marker)) := by
  have hnone : (Text.occurrences marker document)[k - 1]? = none :=
    List.getElem?_eq_none (by rw [← count]; omega)
  rw [find, if_neg (by omega), if_neg hm, hnone]

/-- Each occurrence of a marker begins inside one of its matches. -/
theorem exists_find_of_occursAt (hm : marker.toList ≠ [])
    (h : OccursAt marker.toList i document.toList) :
    ∃ k n, find document marker k = .ok n ∧ n ≤ i ∧ i < n + marker.utf8ByteSize := by
  obtain ⟨n, hn, hle, hlt⟩ := Text.exists_match_of_occursAt hm 0 h
  obtain ⟨k, hk⟩ := List.mem_iff_getElem?.1 hn
  rw [Nat.zero_add] at hle hlt
  rw [Text.byteSize_toList] at hlt
  exact ⟨k + 1, n, find_eq_ok_iff.2 ⟨k, rfl, hm, hk⟩, hle, hlt⟩

/-- Up to an occurrence behind a match there is a next match. -/
theorem exists_next_of_occursAt (hm : marker.toList ≠ [])
    (h : OccursAt marker.toList i document.toList) (hk : find document marker k = .ok n)
    (hbehind : n + marker.utf8ByteSize ≤ i) :
    ∃ n', find document marker (k + 1) = .ok n' ∧ n' ≤ i := by
  obtain ⟨j, m, hj, hle, hlt⟩ := exists_find_of_occursAt hm h
  have hkj : k + 1 ≤ j := by
    by_contra hjk
    have := find_le hj hk (by omega)
    omega
  obtain ⟨n', hn'⟩ := exists_find_of_le hj (Nat.succ_pos k) hkj
  exact ⟨n', hn', (find_le hn' hj hkj).trans hle⟩

/-- The anchors of a marker are the choice that a search from left to right makes among its
occurrences: the matches are numbered from one, each ends in front of the next one, no occurrence
begins in front of the first match, between two matches or behind the last one, and no choice of
occurrences without overlap has more of them. A number that is too large is refused with the number
of matches, and the number zero is refused for every marker. -/
theorem find_greedy (document marker : String) :
    find document marker 0 = .error .occurrenceZero ∧
    (marker ≠ "" →
      let c := count document marker
      (∀ k, (∃ n, find document marker k = .ok n) ↔ 1 ≤ k ∧ k ≤ c) ∧
      (∀ k, c < k → find document marker k = .error (.markerNotFound marker k c)) ∧
      (∀ k n, find document marker k = .ok n → OccursAt marker.toList n document.toList) ∧
      (∀ k n n', find document marker k = .ok n → find document marker (k + 1) = .ok n' →
        n + marker.utf8ByteSize ≤ n' ∧
          ∀ i, OccursAt marker.toList i document.toList →
            ¬(n + marker.utf8ByteSize ≤ i ∧ i < n')) ∧
      (∀ n, find document marker 1 = .ok n →
        ∀ i, OccursAt marker.toList i document.toList → n ≤ i) ∧
      (∀ n, find document marker c = .ok n →
        ∀ i, OccursAt marker.toList i document.toList → i < n + marker.utf8ByteSize) ∧
      (c = 0 → ∀ i, ¬OccursAt marker.toList i document.toList) ∧
      IsGreatest {m | ∃ s, IsPacking marker.toList document.toList s ∧ s.card = m} c) := by
  refine ⟨rfl, fun hne => ?_⟩
  have hm : marker.toList ≠ [] := by simpa using hne
  intro c
  refine ⟨fun k => exists_find_iff hm, fun k => find_of_count_lt hm, fun k n h => ?_,
    fun k n n' h h' => ⟨find_add_le h h' (Nat.lt_succ_self k), fun i hi => ?_⟩,
    fun n h i hi => ?_, fun n h i hi => ?_, fun hzero i hi => ?_, ?_⟩
  · obtain ⟨front, rest, hdocument, hsize⟩ := exists_split_of_find h
    exact ⟨front, rest, hdocument, hsize⟩
  · rintro ⟨hbehind, hlt⟩
    obtain ⟨next, hnext, hle⟩ := exists_next_of_occursAt hm hi h hbehind
    obtain rfl := Except.ok.inj (hnext.symm.trans h')
    omega
  · obtain ⟨k, m, hk, hle, -⟩ := exists_find_of_occursAt hm hi
    exact (find_le h hk ((exists_find_iff hm).1 ⟨m, hk⟩).1).trans hle
  · by_contra hbehind
    obtain ⟨next, hnext, -⟩ := exists_next_of_occursAt hm hi h (not_lt.1 hbehind)
    have := ((exists_find_iff hm).1 ⟨next, hnext⟩).2
    omega
  · obtain ⟨k, m, hk, -, -⟩ := exists_find_of_occursAt hm hi
    have := (exists_find_iff hm).1 ⟨m, hk⟩
    omega
  · rw [show c = _ from count_eq hm]
    exact Text.isGreatest_card_isPacking hm document.toList

/-- A marker that overlaps itself occurs at 3, 5 and 7. The search takes the first and the last of
these occurrences, and without overlap no more can be taken. -/
theorem find_greedy_self_overlap :
    let document := "ü-abababab"
    let marker := "aba"
    marker ≠ "" ∧ count document marker = 2 ∧ find document marker 1 = .ok 3 ∧
      find document marker 2 = .ok 7 ∧ OccursAt marker.toList 5 document.toList ∧
      find document marker 3 = .error (.markerNotFound marker 3 2) ∧
      ∀ s, IsPacking marker.toList document.toList s → s.card ≤ 2 := by
  intro document marker
  have hne : marker ≠ "" := by decide
  have hcount : count document marker = 2 := by decide +kernel
  have hfirst : find document marker 1 = .ok 3 := by decide +kernel
  have hsecond : find document marker 2 = .ok 7 := by decide +kernel
  have hmiddle : OccursAt marker.toList 5 document.toList :=
    ⟨"ü-ab".toList, "bab".toList, by decide, by decide⟩
  obtain ⟨-, hmissing, -, -, -, -, -, -, hgreatest⟩ := (find_greedy document marker).2 hne
  rw [hcount] at hmissing hgreatest
  exact ⟨hne, hcount, hfirst, hsecond, hmiddle, hmissing 3 (by decide),
    fun s hs => hgreatest ⟨s, hs, rfl⟩⟩

end Anchor

end BlockEdit
