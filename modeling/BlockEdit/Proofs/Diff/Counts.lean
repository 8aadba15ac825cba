import BlockEdit.Proofs.Diff.Spans

/-!
# The lines that a diff counts

The summary of a difference counts the lines of its changes. The hunks of a unified diff leave lines
out, but only such as stay the same: they show all changes, each one once and in the same order
(`changes_hunks`). A change is shown with a mark in front of each of its lines, so the marked lines
of the diff are as many as the summary says (`Summary.between_eq_markedLines`).

Between two places, the new text has as many lines more than the old one as the changes insert more
than they delete (`Tiles.add_deleted`), and where they do neither, all lines stay the same
(`Tiles.skips_of_isEmpty`); so the summary is empty when the texts are the same, and only then
(`Summary.isEmpty_between_iff`).
-/

namespace BlockEdit.Diff

variable {p : Pair} {a b c : Place} {s : Segment} {segments current : List Segment}

/-! ### The changes that hunks show -/

/-- The segments that do not stay the same. -/
def changes (segments : List Segment) : List Segment := segments.filter (!·.same)

theorem changes_append (xs ys : List Segment) : changes (xs ++ ys) = changes xs ++ changes ys :=
  List.filter_append ..

theorem changes_cons_of_same (h : s.same = true) : changes (s :: segments) = changes segments :=
  List.filter_cons_of_neg (by simp [h])

theorem changes_singleton_of_same (h : s.same = true) : changes [s] = [] :=
  changes_cons_of_same h

theorem changes_trimStart (segments : List Segment) :
    changes (trimStart segments) = changes segments := by
  cases segments with
  | nil => rfl
  | cons s rest =>
    rw [trimStart]
    split
    · next hsame =>
      have hbehind : s.contextBehind.same = true := hsame
      rw [changes_cons_of_same hbehind, changes_cons_of_same hsame]
    · rfl

theorem changes_trimEnd (segments : List Segment) :
    changes (trimEnd segments) = changes segments := by
  fun_induction trimEnd segments with
  | case1 => rfl
  | case2 s hsame =>
    have hahead : s.contextAhead.same = true := hsame
    rw [changes_singleton_of_same hahead, changes_singleton_of_same hsame]
  | case3 s hsame => rfl
  | case4 s rest hrest ih =>
    rw [← List.singleton_append, changes_append, ih, ← changes_append, List.singleton_append]

theorem changes_ifChanged (hunk : Hunk) : changes (Hunk.ifChanged hunk).flatten = changes hunk := by
  fun_cases Hunk.ifChanged hunk with
  | case1 => rfl
  | case2 s hsame => exact (changes_singleton_of_same hsame).symm
  | case3 s hsame => rfl
  | case4 hunk h h' => simp

theorem changes_divide (current segments : List Segment) :
    changes (divide current segments).flatten = changes (current.reverse ++ segments) := by
  fun_induction divide current segments with
  | case1 current => rw [changes_ifChanged, List.append_nil]
  | case2 current s rest hlong ih =>
    -- The long stretch is cut in two, and neither part is a change.
    have hahead : s.contextAhead.same = true := hlong.1
    have hbehind : s.contextBehind.same = true := hlong.1
    simp only [List.flatten_cons, List.reverse_cons, changes_append, ih, List.reverse_nil,
      List.nil_append, changes_singleton_of_same hahead, changes_singleton_of_same hbehind,
      changes_cons_of_same hlong.1, List.append_nil]
  | case3 current s rest hshort ih =>
    rw [ih, List.reverse_cons, List.append_assoc, List.singleton_append]

/-- Hunks leave out no change. -/
theorem changes_hunks (segments : List Segment) :
    changes (hunks segments).flatten = changes segments := by
  rw [hunks, changes_divide, List.reverse_nil, List.nil_append, changes_trimEnd, changes_trimStart]

/-! ### Sums over changes -/

namespace Summary

theorem ofSegments_congr {xs ys : List Segment} (h : changes xs = changes ys) :
    ofSegments xs = ofSegments ys := by
  simp only [changes] at h
  simp only [ofSegments, h]

theorem ofSegments_cons_of_same (h : s.same = true) :
    ofSegments (s :: segments) = ofSegments segments :=
  ofSegments_congr (changes_cons_of_same h)

theorem ofSegments_cons_of_change (h : s.same = false) :
    ofSegments (s :: segments) = ⟨s.newSize + (ofSegments segments).inserted,
      s.oldSize + (ofSegments segments).deleted⟩ := by
  simp [ofSegments, h]

end Summary

open Summary

/-- Between two places, what the new text has more than the old one is inserted and not deleted. -/
theorem Tiles.add_deleted (h : Tiles (Segment.Fits p) a segments b) :
    b.2 + a.1 + (ofSegments segments).deleted = b.1 + a.2 + (ofSegments segments).inserted := by
  induction h with
  | nil a => exact congrArg (· + 0) (Nat.add_comm _ _)
  | @cons a b c s segments hs htiles ih =>
    have hstop := hs.stop
    cases hsame : s.same with
    | true =>
      have hsize := (hs.same hsame).1
      rw [ofSegments_cons_of_same hsame]
      simp only [hstop, hsize] at ih
      omega
    | false =>
      rw [ofSegments_cons_of_change hsame]
      simp only [hstop] at ih ⊢
      omega

/-- Between two places, all lines stay the same if none is inserted or deleted. -/
theorem Tiles.skips_of_isEmpty (h : Tiles (Segment.Fits p) a segments b)
    (hempty : (ofSegments segments).isEmpty = true) : Skips p a b := by
  induction h with
  | nil a => exact .refl p a
  | @cons a b c s segments hs htiles ih =>
    cases hsame : s.same with
    | true =>
      rw [ofSegments_cons_of_same hsame] at hempty
      exact (hs.skips_all hsame).trans (ih hempty)
    | false =>
      have hsize := hs.size
      simp only [ofSegments_cons_of_change hsame, isEmpty, Bool.and_eq_true, beq_iff_eq] at hempty
      omega

/-! ### Marked lines -/

/-- The line of a diff has the mark. -/
def isMarked (mark : Char) (line : List Char) : Bool := line.head? = some mark

/-- The number of lines of a unified diff that have the mark, behind the two that name the file. -/
def markedLines (mark : Char) (diff : String) : Nat :=
  ((splitFrom [] diff.toList).drop 2).countP (isMarked mark)

theorem isMarked_cons (mark m : Char) (line : List Char) :
    isMarked mark (m :: line) = decide (m = mark) := by
  simp [isMarked]

/-- A line is shown with its mark once, and what says that it has no ending has no mark. -/
theorem countP_shown {mark m : Char} (hmark : mark ≠ '\\') (line : String) :
    (shown m line).countP (isMarked mark) = if m = mark then 1 else 0 := by
  have hnote : isMarked mark noNewlineMark.toList.tail = false :=
    (isMarked_cons mark '\\' _).trans (decide_eq_false hmark.symm)
  rw [shown]
  split
  · simp [isMarked_cons]
  · rw [List.countP_cons, List.countP_singleton, hnote, List.cons_append, isMarked_cons]
    simp

theorem countP_flatMap_shown {mark m : Char} (hmark : mark ≠ '\\') (ls : List String) :
    (ls.flatMap (shown m)).countP (isMarked mark) = if m = mark then ls.length else 0 := by
  induction ls with
  | nil => simp
  | cons line ls ih =>
    rw [List.flatMap_cons, List.countP_append, countP_shown hmark, ih, List.length_cons]
    split <;> omega

/-- A segment has the lines that it names in the texts. -/
structure Segment.IsWithin (p : Pair) (s : Segment) : Prop where
  old : (stretch p.old s.oldStart s.oldSize).length = s.oldSize
  new : (stretch p.new s.newStart s.newSize).length = s.newSize

theorem Segment.Fits.isWithin (h : Segment.Fits p a s b) (hb : b ≤ (p.old.size, p.new.size)) :
    s.IsWithin p := by
  have hold := length_between h.le.1 hb.1
  have hnew := length_between h.le.2 hb.2
  rw [← h.stretch_old] at hold
  rw [← h.stretch_new] at hnew
  rw [h.stop] at hold hnew
  exact ⟨by omega, by omega⟩

/-- The segments of a difference have their lines in the texts. -/
theorem isWithin_of_mem_segments (hs : s ∈ p.segments) : s.IsWithin p := by
  obtain ⟨front, behind, heq⟩ := List.append_of_mem hs
  have htiles := tiles_segments p
  rw [heq] at htiles
  obtain ⟨a, -, htiles⟩ := tiles_append_iff.1 htiles
  obtain ⟨b, hfits, htiles⟩ := tiles_cons_iff.1 htiles
  exact hfits.isWithin (htiles.le Segment.Fits.le)

theorem Segment.countP_shown_of_same {mark : Char} (hsame : s.same = true) (hmark : mark ≠ '\\')
    (hne : mark ≠ ' ') : (s.shown p).countP (isMarked mark) = 0 := by
  rw [Segment.shown, if_pos hsame, countP_flatMap_shown hmark, if_neg hne.symm]

theorem Segment.IsWithin.countP_shown (h : s.IsWithin p) (hsame : s.same = false) :
    (s.shown p).countP (isMarked '+') = s.newSize ∧
      (s.shown p).countP (isMarked '-') = s.oldSize := by
  rw [Segment.shown, if_neg (by simp [hsame]), List.countP_append, List.countP_append]
  simp [countP_flatMap_shown, h.old, h.new]

theorem countP_segments (h : ∀ s ∈ changes segments, s.IsWithin p) :
    (segments.flatMap (Segment.shown p)).countP (isMarked '+') = (ofSegments segments).inserted ∧
      (segments.flatMap (Segment.shown p)).countP (isMarked '-') =
        (ofSegments segments).deleted := by
  induction segments with
  | nil => exact ⟨rfl, rfl⟩
  | cons s segments ih =>
    rw [List.flatMap_cons, List.countP_append, List.countP_append]
    cases hsame : s.same with
    | true =>
      rw [changes_cons_of_same hsame] at h
      rw [ofSegments_cons_of_same hsame, Segment.countP_shown_of_same hsame (by decide) (by decide),
        Segment.countP_shown_of_same hsame (by decide) (by decide), Nat.zero_add, Nat.zero_add]
      exact ih h
    | false =>
      have hchanges : changes (s :: segments) = s :: changes segments :=
        List.filter_cons_of_pos (by simp [hsame])
      rw [hchanges] at h
      obtain ⟨hs, hrest⟩ := List.forall_mem_cons.1 h
      obtain ⟨hinserted, hdeleted⟩ := hs.countP_shown hsame
      rw [ofSegments_cons_of_change hsame, hinserted, hdeleted, (ih hrest).1, (ih hrest).2]
      exact ⟨rfl, rfl⟩

/-- The lines that open hunks have another mark. -/
theorem countP_hunks {mark : Char} (hmark : mark ≠ '@') (hs : List Hunk) :
    (hs.flatMap (Hunk.shown p)).countP (isMarked mark) =
      (hs.flatten.flatMap (Segment.shown p)).countP (isMarked mark) := by
  induction hs with
  | nil => rfl
  | cons hunk hs ih =>
    rw [List.flatMap_cons, List.flatten_cons, List.flatMap_append, List.countP_append,
      List.countP_append, ih]
    cases hunk with
    | nil => rfl
    | cons first rest =>
      have hheader : isMarked mark (Hunk.header first (rest.getLastD first)).toList = false := by
        have hhead : (Hunk.header first (rest.getLastD first)).toList.head? = some '@' := by
          simp [Hunk.header]
        rw [isMarked, hhead]
        exact decide_eq_false fun h => hmark (Option.some.inj h).symm
      rw [Hunk.shown, List.countP_cons_of_neg (Bool.eq_false_iff.1 hheader)]

/-- The summary of a difference counts the marked lines of the unified diff. -/
theorem Summary.between_eq_markedLines {path : String} (hpath : NoBreak path.toList)
    (old new : String) :
    (Summary.between old new).inserted = markedLines '+' (unified path old new) ∧
      (Summary.between old new).deleted = markedLines '-' (unified path old new) := by
  have hkept := changes_hunks (Pair.ofTexts old new).segments
  have hwithin : ∀ s ∈ changes (hunks (Pair.ofTexts old new).segments).flatten,
      s.IsWithin (.ofTexts old new) := fun s hs => by
    rw [hkept] at hs
    exact isWithin_of_mem_segments (List.mem_of_mem_filter hs)
  obtain ⟨hinserted, hdeleted⟩ := countP_segments hwithin
  rw [markedLines, markedLines, lines_unified old new path hpath, countP_hunks (by decide),
    countP_hunks (by decide), hinserted, hdeleted, ofSegments_congr hkept]
  exact ⟨rfl, rfl⟩

theorem Summary.size_add_between (old new : String) :
    (lines new).size + (Summary.between old new).deleted =
      (lines old).size + (Summary.between old new).inserted :=
  (tiles_segments (.ofTexts old new)).add_deleted

theorem Summary.isEmpty_between_iff {old new : String} :
    (Summary.between old new).isEmpty = true ↔ old = new := by
  constructor
  · intro hempty
    have hskips := (tiles_segments (.ofTexts old new)).skips_of_isEmpty hempty
    have hsame := between_of_skips hskips
    rw [between_size, between_size] at hsame
    exact lines_injective (Array.toList_inj.1 hsame)
  · rintro rfl
    -- There are no hunks, and so no lines that could be counted.
    have hpath : NoBreak "".toList := ⟨by decide, by decide⟩
    obtain ⟨hinserted, hdeleted⟩ := between_eq_markedLines hpath old old
    rw [(unified_eq_empty_iff "" old old).2 rfl] at hinserted hdeleted
    rw [isEmpty, hinserted, hdeleted]
    rfl

end BlockEdit.Diff
