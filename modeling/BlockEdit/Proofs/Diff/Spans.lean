import BlockEdit.Proofs.Diff.Patch

/-!
# What the hunks of a diff show

A diff has no hunks, and is empty, when the texts are the same (`unified_eq_empty_iff`). Each hunk
shows the old and the new lines between two places (`Hunk.Shows`), and these stretches follow one
another (`exists_spans`). The header of a hunk names the places of its first and last segment. A
segment names its true place on a side that has lines of it, and on the other side the place where
its run was found before the compaction; so a range of the header is right when the first and the
last segment both have lines of that side, as those that stay the same do.
-/

namespace BlockEdit.Diff

variable {p : Pair} {n : Nat} {a b c d : Place} {op : Op} {ops : List Op} {kind : Kind}
  {rest : List (List Char)} {line : String} {s : Segment} {segments : List Segment}

/-! ### Texts without a difference -/

theorem settle_of_forall_ne {before after : List Op} {fuel : Nat}
    (h : ∀ op ∈ after, op.kind ≠ kind) :
    p.settle kind fuel before after = before.reverse ++ after := by
  induction fuel generalizing before after with
  | zero => rfl
  | succ fuel ih =>
    cases after with
    | nil => rw [Pair.settle, List.append_nil]
    | cons op after =>
      obtain ⟨hop, hafter⟩ := List.forall_mem_cons.1 h
      rw [Pair.settle, if_neg hop, ih hafter, List.reverse_cons, List.append_assoc,
        List.singleton_append]

theorem compact_of_forall_equal (h : ∀ op ∈ ops, op.kind = .equal) : p.compact ops = ops := by
  have hkind : ∀ kind, kind ≠ .equal → p.compactKind kind ops = ops := fun kind hne =>
    settle_of_forall_ne fun op hop => h op hop ▸ hne.symm
  rw [Pair.compact, hkind .delete nofun, hkind .insert nofun]

/-- Lines that stay the same are not shown alone. -/
theorem hunks_of_same (hsame : s.same = true) : hunks [s] = [] := by
  have hsize : ¬2 * context < min (s.oldSize - (s.oldSize - context)) context := by
    simp only [context]
    omega
  simp [hunks, trimStart, trimEnd, divide, Hunk.ifChanged, Segment.contextAhead,
    Segment.contextBehind, Segment.dropFirst, hsame, hsize]

theorem hunks_eq_nil_iff : hunks p.segments = [] ↔ p.old = p.new := by
  constructor
  · intro h
    have hpatch := patch_pair p
    rw [h] at hpatch
    exact Array.toList_inj.1 hpatch
  · intro h
    have hkept : ∀ op ∈ Pair.kept 0 0 p.old.size, op.kind = .equal := by
      simp only [Pair.kept]
      split <;> simp [Op.equal]
    rw [Pair.segments, p.compare_self h, compact_of_forall_equal hkept, Pair.kept]
    split
    · rfl
    · exact hunks_of_same (s := .ofOp (.equal 0 0 p.old.size)) rfl

theorem lines_injective {old new : String} (h : lines old = lines new) : old = new := by
  rw [← join_lines old, h, join_lines]

theorem unified_eq_empty_iff (path old new : String) : unified path old new = "" ↔ old = new := by
  have hunks_iff : unified path old new = "" ↔ hunks (Pair.ofTexts old new).segments = [] := by
    rw [unified]
    cases hunks (Pair.ofTexts old new).segments with
    | nil => simp
    | cons hunk hs => simp [fileHeader, ← String.toList_inj]
  rw [hunks_iff, hunks_eq_nil_iff]
  exact ⟨lines_injective, fun h => by rw [h]; rfl⟩

/-! ### The lines that are shown -/

/-- The lines of one side that the lines of a diff show: those that stay the same and those with
the mark of the side. -/
def shownLines (mark : Char) : List (List Char) → List String
  | (c :: text) :: rest =>
    if c = ' ' ∨ c = mark then lineOf text rest :: shownLines mark rest else shownLines mark rest
  | [] :: rest => shownLines mark rest
  | [] => []

theorem shownLines_shown {mark m : Char} (hmark : mark ≠ '\\') (hrest : saysUnended rest = false) :
    shownLines mark (shown m line ++ rest) =
      if m = ' ' ∨ m = mark then line :: shownLines mark rest else shownLines mark rest := by
  obtain ⟨text, rest', hshown, hline, hpass⟩ := exists_shown m line hrest
  have hnote : ¬('\\' = ' ' ∨ '\\' = mark) := not_or.2 ⟨by decide, hmark.symm⟩
  have hpass : shownLines mark rest' = shownLines mark rest := by
    obtain rfl | rfl := hpass
    · rfl
    · exact if_neg hnote
  rw [hshown, shownLines, hline, hpass]

theorem shownLines_flatMap {mark m : Char} (hmark : mark ≠ '\\') (hm : m ≠ '\\') (ls : List String)
    (hrest : saysUnended rest = false) :
    shownLines mark (ls.flatMap (shown m) ++ rest) =
      (if m = ' ' ∨ m = mark then ls else []) ++ shownLines mark rest := by
  induction ls with
  | nil => simp
  | cons line ls ih =>
    rw [List.flatMap_cons, List.append_assoc,
      shownLines_shown hmark (saysUnended_flatMap hm hrest), ih]
    split <;> simp

/-- The old lines of a segment are those between its places. -/
theorem Segment.Fits.shownLines_old (h : Segment.Fits p a s b) (hrest : saysUnended rest = false) :
    shownLines '-' (s.shown p ++ rest) = between p.old a.1 b.1 ++ shownLines '-' rest := by
  rw [Segment.shown, h.stretch_old]
  split
  · exact shownLines_flatMap (by decide) (by decide) _ hrest
  · rw [List.append_assoc, shownLines_flatMap (by decide) (by decide) _
      (saysUnended_flatMap (by decide) hrest), shownLines_flatMap (by decide) (by decide) _ hrest]
    rfl

/-- The new lines of a segment are those between its places. -/
theorem Segment.Fits.shownLines_new (h : Segment.Fits p a s b) (hrest : saysUnended rest = false) :
    shownLines '+' (s.shown p ++ rest) = between p.new a.2 b.2 ++ shownLines '+' rest := by
  rw [Segment.shown, h.stretch_old, h.stretch_new]
  split
  · next hsame =>
    rw [← between_of_skips (h.skips_all hsame)]
    exact shownLines_flatMap (by decide) (by decide) _ hrest
  · rw [List.append_assoc, shownLines_flatMap (by decide) (by decide) _
      (saysUnended_flatMap (by decide) hrest), shownLines_flatMap (by decide) (by decide) _ hrest]
    rfl

theorem shownLines_tiles (h : Tiles (Segment.Fits p) a segments b) :
    shownLines '-' (segments.flatMap (Segment.shown p)) = between p.old a.1 b.1 ∧
      shownLines '+' (segments.flatMap (Segment.shown p)) = between p.new a.2 b.2 := by
  induction h with
  | nil a => simp [between, shownLines]
  | @cons a b c s segments hs htiles ih =>
    have hle := htiles.le Segment.Fits.le
    have hrest : saysUnended (segments.flatMap (Segment.shown p)) = false := by
      have hnil : saysUnended [] = false := rfl
      simpa using Segment.saysUnended_shown p segments hnil
    rw [List.flatMap_cons, hs.shownLines_old hrest, hs.shownLines_new hrest, ih.1, ih.2,
      between_append hs.le.1 hle.1, between_append hs.le.2 hle.2]
    exact ⟨rfl, rfl⟩

/-! ### Spans -/

/-- A hunk shows the lines between two places. A range of its header is the one between them when
the first and the last segment have lines of that side; both are when the hunk neither begins with
the first lines of the texts nor ends with their last. -/
structure Hunk.Shows (p : Pair) (hunk : Hunk) (span : Place × Place) : Prop where
  lt : span.1 < span.2
  le : span.2 ≤ (p.old.size, p.new.size)
  old : shownLines '-' (hunk.shown p) = between p.old span.1.1 span.2.1
  new : shownLines '+' (hunk.shown p) = between p.new span.1.2 span.2.2
  header : ∃ first ∈ hunk.head?, ∃ last ∈ hunk.getLast?, ∃ oldRange newRange,
    (hunk.shown p).head? = some ("@@ -" ++ oldRange ++ " +" ++ newRange ++ " @@\n").toList ∧
    (0 < first.oldSize → 0 < last.oldSize → oldRange = rangeText span.1.1 span.2.1) ∧
    (0 < first.newSize → 0 < last.newSize → newRange = rangeText span.1.2 span.2.2) ∧
    (span.1 ≠ (0, 0) → span.2 ≠ (p.old.size, p.new.size) →
      oldRange = rangeText span.1.1 span.2.1 ∧ newRange = rangeText span.1.2 span.2.2)

theorem Segment.Fits.oldStop (h : Segment.Fits p a s b) (hsize : 0 < s.oldSize) :
    s.oldStop = b.1 := by
  rw [Segment.oldStop, h.old hsize, h.stop]

theorem Segment.Fits.newStop (h : Segment.Fits p a s b) (hsize : 0 < s.newSize) :
    s.newStop = b.2 := by
  rw [Segment.newStop, h.new hsize, h.stop]

theorem Hunk.Fits.shows {hunk : Hunk} (h : Hunk.Fits p a hunk c)
    (hc : c ≤ (p.old.size, p.new.size)) :
    ∃ b, a ≤ b ∧ Hunk.Shows p hunk (b, c) := by
  obtain ⟨b, hskips, hopens, htiles⟩ := h.tiles
  refine ⟨b, hskips.le, ?_⟩
  cases hunk with
  | nil => exact absurd rfl h.ne_nil
  | cons first segments =>
    obtain ⟨d, hs, hsegments⟩ := tiles_cons_iff.1 htiles
    obtain ⟨hold, hnew⟩ := shownLines_tiles htiles
    have hheader : ∀ mark, mark ≠ '@' → shownLines mark (Hunk.shown p (first :: segments)) =
        shownLines mark ((first :: segments).flatMap (Segment.shown p)) := fun mark hne => by
      simp [Hunk.shown, Hunk.header, shownLines, hne.symm]
    obtain ⟨last, hlastEq⟩ : ∃ last, segments.getLastD first = last := ⟨_, rfl⟩
    have hhead : (Hunk.shown p (first :: segments)).head? =
        some (Hunk.header first last).toList := by rw [← hlastEq]; rfl
    have hlast : last ∈ (first :: segments).getLast? := by
      rw [List.getLast?_cons, ← List.getLastD_eq_getLast?, hlastEq]
      rfl
    obtain ⟨e, hlastFits⟩ := htiles.last hlast
    have holdRange : 0 < first.oldSize → 0 < last.oldSize →
        rangeText first.oldStart last.oldStop = rangeText b.1 c.1 := fun hfirst hsize => by
      rw [hs.old hfirst, hlastFits.oldStop hsize]
    have hnewRange : 0 < first.newSize → 0 < last.newSize →
        rangeText first.newStart last.newStop = rangeText b.2 c.2 := fun hfirst hsize => by
      rw [hs.new hfirst, hlastFits.newStop hsize]
    refine ⟨lt_of_lt_of_le hs.lt (hsegments.le Segment.Fits.le), hc, ?_, ?_,
      first, rfl, last, hlast, _, _, hhead, holdRange, hnewRange, fun hb hend => ?_⟩
    · rw [hheader '-' (by decide), hold]
    · rw [hheader '+' (by decide), hnew]
    · have hsame := (opensAt_cons.1 hopens).resolve_right hb
      have hsame' := (h.closes last hlast).resolve_right hend
      have hfirst := hs.oldSize_pos hsame
      have hlast := hlastFits.oldSize_pos hsame'
      exact ⟨holdRange hfirst hlast,
        hnewRange ((hs.same hsame).1 ▸ hfirst) ((hlastFits.same hsame').1 ▸ hlast)⟩

/-- Hunks that follow one another show stretches of lines that do so. -/
theorem exists_spans {hs : List Hunk} (h : Tiles (Hunk.Fits p) a hs c)
    (hc : c ≤ (p.old.size, p.new.size)) :
    ∃ spans : List (Place × Place), List.Forall₂ (Hunk.Shows p) hs spans ∧
      spans.Pairwise (fun span span' => span.2 ≤ span'.1) ∧ ∀ span ∈ spans, a ≤ span.1 := by
  induction h with
  | nil a => exact ⟨[], .nil, .nil, by simp⟩
  | @cons a b c hunk hs hhunk htiles ih =>
    obtain ⟨start, hstart, hshows⟩ := hhunk.shows ((htiles.le Hunk.Fits.le).trans hc)
    obtain ⟨spans, hspans, hordered, hbehind⟩ := ih hc
    refine ⟨(start, b) :: spans, .cons hshows hspans, .cons hbehind hordered, ?_⟩
    refine List.forall_mem_cons.2 ⟨hstart, fun span hspan => ?_⟩
    exact (hstart.trans (le_of_lt hshows.lt)).trans (hbehind span hspan)

end BlockEdit.Diff
