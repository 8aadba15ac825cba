import BlockEdit.Diff.Unified
import BlockEdit.Proofs.Diff.Compaction

/-!
# Segments and hunks in their places

The segments of a difference follow one another from the first lines of the texts to their ends, and
each one names its true place on a side that has lines of it (`tiles_segments`). Hunks leave lines
out between them that are the same in both texts (`Hunk.Fits`), and so do the lines behind the last
one (`exists_tiles_hunks`).
-/

namespace BlockEdit.Diff

variable {p : Pair} {i j m n k : Nat} {a b c d : Place} {op first : Op} {ops : List Op}
  {s : Segment} {segments current : List Segment}

/-! ### Segments -/

/-- A segment has its place from one place to another. -/
structure Segment.Fits (p : Pair) (a : Place) (s : Segment) (b : Place) : Prop where
  stop : b = (a.1 + s.oldSize, a.2 + s.newSize)
  old : 0 < s.oldSize → s.oldStart = a.1
  new : 0 < s.newSize → s.newStart = a.2
  same : s.same = true → s.newSize = s.oldSize ∧ p.Agree a.1 a.2 s.oldSize
  size : 0 < s.oldSize ∨ 0 < s.newSize

/-- What is being put together has its place from one place to another. -/
def Pending.Fits (p : Pair) (a : Place) : Pending → Place → Prop
  | .nothing, b => b = a
  | .equal op, b => op.kind = .equal ∧ Op.Fits p a op b
  | .change deletion insertion, b =>
    (match deletion with
      | none => b.1 = a.1
      | some op => op.kind = .delete ∧ Op.Fits p a op (b.1, a.2)) ∧
    (match insertion with
      | none => b.2 = a.2
      | some op => op.kind = .insert ∧ Op.Fits p a op (a.1, b.2))

theorem Segment.Fits.le (h : Segment.Fits p a s b) : a ≤ b := by
  rw [h.stop]
  exact ⟨Nat.le_add_right _ _, Nat.le_add_right _ _⟩

theorem Segment.Fits.lt (h : Segment.Fits p a s b) : a < b := by
  refine lt_of_le_of_ne h.le fun hab => ?_
  have hsize := h.size
  have hold := congrArg Prod.fst (hab.trans h.stop)
  have hnew := congrArg Prod.snd (hab.trans h.stop)
  simp only at hold hnew
  omega

theorem Op.Fits.ofOp (h : Op.Fits p a op b) : Segment.Fits p a (.ofOp op) b := by
  cases h with
  | equal hagree hn =>
    exact ⟨rfl, fun _ => rfl, fun _ => rfl, fun _ => ⟨rfl, hagree⟩, .inl hn⟩
  | delete k hn =>
    exact ⟨rfl, fun _ => rfl, fun h => absurd h (Nat.lt_irrefl 0), nofun, .inl hn⟩
  | insert k hn =>
    exact ⟨rfl, fun h => absurd h (Nat.lt_irrefl 0), fun _ => rfl, nofun, .inr hn⟩

/-- What is said of a deletion by its place. -/
theorem Op.Fits.of_delete (hkind : op.kind = .delete) (h : Op.Fits p a op b) :
    0 < op.oldSize ∧ op.oldStart = a.1 ∧ b = (a.1 + op.oldSize, a.2) ∧
      ∀ j, Op.Fits p (a.1, j) op (b.1, j) := by
  cases h with
  | equal => cases hkind
  | insert => cases hkind
  | delete k hn => exact ⟨hn, rfl, rfl, fun j => .delete k hn⟩

/-- What is said of an insertion by its place. -/
theorem Op.Fits.of_insert (hkind : op.kind = .insert) (h : Op.Fits p a op b) :
    0 < op.newSize ∧ op.newStart = a.2 ∧ b = (a.1, a.2 + op.newSize) ∧
      ∀ i, Op.Fits p (i, a.2) op (i, b.2) := by
  cases h with
  | equal => cases hkind
  | delete => cases hkind
  | insert k hn => exact ⟨hn, rfl, rfl, fun i => .insert k hn⟩

theorem Pending.Fits.finish {pending : Pending} (h : Pending.Fits p a pending b) :
    Tiles (Segment.Fits p) a pending.finish b := by
  obtain ⟨x, y⟩ := a
  obtain ⟨x', y'⟩ := b
  cases pending with
  | nothing => exact tiles_nil_iff.2 h.symm
  | equal op => exact tiles_singleton_iff.2 h.2.ofOp
  | change deletion insertion =>
    obtain ⟨hdeletion, hinsertion⟩ := h
    cases deletion with
    | none =>
      obtain rfl : x' = x := hdeletion
      cases insertion with
      | none =>
        obtain rfl : y' = y := hinsertion
        exact .nil _
      | some i => exact tiles_singleton_iff.2 hinsertion.2.ofOp
    | some d =>
      cases insertion with
      | none =>
        obtain rfl : y' = y := hinsertion
        exact tiles_singleton_iff.2 hdeletion.2.ofOp
      | some i =>
        obtain ⟨hsize, hold, hb, -⟩ := hdeletion.2.of_delete hdeletion.1
        obtain ⟨-, hnew, hb', -⟩ := hinsertion.2.of_insert hinsertion.1
        cases hb
        cases hb'
        exact tiles_singleton_iff.2 ⟨rfl, fun _ => hold, fun _ => hnew, nofun, .inl hsize⟩

/-- A deletion is added to a change. -/
theorem Pending.Fits.delete {deletion insertion : Option Op} (hkind : op.kind = .delete)
    (h : Pending.Fits p a (.change deletion insertion) b) (hop : Op.Fits p b op c) :
    Pending.Fits p a (.change (joinTo deletion op) insertion) c := by
  obtain ⟨-, -, rfl, hbeside⟩ := hop.of_delete hkind
  obtain ⟨x, y⟩ := a
  obtain ⟨x', y'⟩ := b
  obtain ⟨hdeletion, hinsertion⟩ := h
  refine ⟨?_, hinsertion⟩
  cases deletion with
  | none =>
    obtain rfl : x' = x := hdeletion
    exact ⟨hkind, hbeside y⟩
  | some d => exact ⟨hdeletion.1, hdeletion.2.join (hdeletion.1.trans hkind.symm) (hbeside y)⟩

/-- An insertion is added to a change. -/
theorem Pending.Fits.insert {deletion insertion : Option Op} (hkind : op.kind = .insert)
    (h : Pending.Fits p a (.change deletion insertion) b) (hop : Op.Fits p b op c) :
    Pending.Fits p a (.change deletion (joinTo insertion op)) c := by
  obtain ⟨-, -, rfl, hbeside⟩ := hop.of_insert hkind
  obtain ⟨x, y⟩ := a
  obtain ⟨x', y'⟩ := b
  obtain ⟨hdeletion, hinsertion⟩ := h
  refine ⟨hdeletion, ?_⟩
  cases insertion with
  | none =>
    obtain rfl : y' = y := hinsertion
    exact ⟨hkind, hbeside x⟩
  | some i => exact ⟨hinsertion.1, hinsertion.2.join (hinsertion.1.trans hkind.symm) (hbeside x)⟩

theorem tiles_gather {pending : Pending} (hpending : Pending.Fits p a pending b)
    (h : Tiles (Op.Fits p) b ops c) : Tiles (Segment.Fits p) a (gather pending ops) c := by
  fun_induction gather pending ops generalizing a b with
  | case1 pending =>
    rw [← tiles_nil_iff.1 h]
    exact hpending.finish
  | case2 op ops first hkind ih =>
    obtain ⟨d, hop, h⟩ := tiles_cons_iff.1 h
    exact ih ⟨hpending.1, hpending.2.join (hpending.1.trans hkind.symm) hop⟩ h
  | case3 op ops pending hne hkind ih =>
    obtain ⟨d, hop, h⟩ := tiles_cons_iff.1 h
    exact hpending.finish.append (ih ⟨hkind, hop⟩ h)
  | case4 op ops deletion insertion hkind ih =>
    obtain ⟨d, hop, h⟩ := tiles_cons_iff.1 h
    exact ih (hpending.delete hkind hop) h
  | case5 op ops pending hne hkind ih =>
    obtain ⟨d, hop, h⟩ := tiles_cons_iff.1 h
    have hempty : Pending.Fits p b (.change none none) b := ⟨rfl, rfl⟩
    exact hpending.finish.append (ih (hempty.delete hkind hop) h)
  | case6 op ops deletion insertion hkind ih =>
    obtain ⟨d, hop, h⟩ := tiles_cons_iff.1 h
    exact ih (hpending.insert hkind hop) h
  | case7 op ops pending hne hkind ih =>
    obtain ⟨d, hop, h⟩ := tiles_cons_iff.1 h
    have hempty : Pending.Fits p b (.change none none) b := ⟨rfl, rfl⟩
    exact hpending.finish.append (ih (hempty.insert hkind hop) h)

/-- The segments of a difference lead from the first lines of the texts to their ends. -/
theorem tiles_segments (p : Pair) :
    Tiles (Segment.Fits p) (0, 0) p.segments (p.old.size, p.new.size) := by
  have hnothing : Pending.Fits p (0, 0) .nothing (0, 0) := rfl
  exact tiles_gather hnothing (tiles_compact p.tiles_compare)

/-! ### Context -/

/-- A place with `n` shared lines behind it, which lead to another one. -/
def Skips (p : Pair) (a b : Place) : Prop :=
  ∃ n, p.Agree a.1 a.2 n ∧ b = (a.1 + n, a.2 + n)

theorem Skips.refl (p : Pair) (a : Place) : Skips p a a := ⟨0, p.agree_zero _ _, rfl⟩

theorem Skips.le (h : Skips p a b) : a ≤ b := by
  obtain ⟨n, -, rfl⟩ := h
  exact ⟨Nat.le_add_right _ _, Nat.le_add_right _ _⟩

theorem Skips.trans (h : Skips p a b) (h' : Skips p b c) : Skips p a c := by
  obtain ⟨m, hm, rfl⟩ := h
  obtain ⟨n, hn, rfl⟩ := h'
  exact ⟨m + n, hm.append hn, by rw [Nat.add_assoc, Nat.add_assoc]⟩

namespace Segment

section Same

variable (h : Fits p a s b) (hsame : s.same = true)

include h hsame

theorem Fits.oldSize_pos : 0 < s.oldSize := by
  have hsize := (h.same hsame).1
  exact h.size.elim id fun hnew => hsize ▸ hnew

theorem Fits.stop_eq : b = (a.1 + s.oldSize, a.2 + s.oldSize) := by
  rw [h.stop, (h.same hsame).1]

/-- Lines of a segment that stays the same may be left out. -/
theorem Fits.skips (hmn : m ≤ n) (hn : n ≤ s.oldSize) :
    Skips p (a.1 + m, a.2 + m) (a.1 + n, a.2 + n) := by
  have hagree := (h.same hsame).2.first hn
  rw [← Nat.add_sub_cancel' hmn] at hagree
  refine ⟨n - m, hagree.last, ?_⟩
  rw [Nat.add_assoc, Nat.add_assoc, Nat.add_sub_cancel' hmn]

/-- All lines of a segment that stays the same may be left out. -/
theorem Fits.skips_all : Skips p a b := by
  have hall := h.skips hsame (Nat.zero_le _) (Nat.le_refl _)
  rwa [← h.stop_eq hsame] at hall

/-- The first lines of a segment in their places. -/
theorem Fits.contextAhead :
    Fits p a s.contextAhead (a.1 + min s.oldSize context, a.2 + min s.oldSize context) := by
  obtain ⟨hsize, hagree⟩ := h.same hsame
  have hpos := h.oldSize_pos hsame
  have hmin : 0 < min s.oldSize context := Nat.lt_min.2 ⟨hpos, by decide⟩
  refine ⟨?_, fun _ => h.old hpos, fun _ => h.new (hsize ▸ hpos), fun _ => ⟨?_, ?_⟩, .inl hmin⟩
  · simp only [Segment.contextAhead, hsize]
  · simp only [Segment.contextAhead, hsize]
  · exact hagree.first (Nat.min_le_left _ _)

/-- The last lines of a segment in their places. -/
theorem Fits.contextBehind :
    Fits p (a.1 + (s.oldSize - context), a.2 + (s.oldSize - context)) s.contextBehind b := by
  obtain ⟨hsize, hagree⟩ := h.same hsame
  have hpos := h.oldSize_pos hsame
  have hleft : 0 < s.oldSize - (s.oldSize - context) := by simp only [context]; omega
  refine ⟨?_, fun _ => ?_, fun _ => ?_, fun _ => ⟨?_, ?_⟩, .inl hleft⟩
  · rw [h.stop_eq hsame]
    simp only [Segment.contextBehind, dropFirst, hsize, Prod.mk.injEq]
    omega
  · simp only [Segment.contextBehind, dropFirst, h.old hpos]
  · simp only [Segment.contextBehind, dropFirst, h.new (hsize ▸ hpos)]
  · simp only [Segment.contextBehind, dropFirst, hsize]
  · refine Pair.Agree.last (m := s.oldSize - context) ?_
    simp only [Segment.contextBehind, dropFirst]
    rwa [Nat.add_sub_cancel' (Nat.sub_le _ _)]

end Same

end Segment

/-! ### Hunks -/

/-- The segments begin with lines that stay the same, or with the first lines of both texts. -/
def OpensAt (b : Place) (segments : List Segment) : Prop :=
  ∀ first ∈ segments.head?, first.same = true ∨ b = (0, 0)

/-- The segments end with lines that stay the same, or with the last lines of both texts. -/
def ClosesAt (p : Pair) (c : Place) (segments : List Segment) : Prop :=
  ∀ last ∈ segments.getLast?, last.same = true ∨ c = (p.old.size, p.new.size)

/-- A hunk shows the lines up to a place, behind lines that are left out. -/
structure Hunk.Fits (p : Pair) (a : Place) (hunk : Hunk) (c : Place) : Prop where
  ne_nil : hunk ≠ []
  closes : ClosesAt p c hunk
  tiles : ∃ b, Skips p a b ∧ OpensAt b hunk ∧ Tiles (Segment.Fits p) b hunk c

theorem opensAt_nil (b : Place) : OpensAt b [] := by simp [OpensAt]

theorem closesAt_nil (p : Pair) (c : Place) : ClosesAt p c [] := by simp [ClosesAt]

theorem opensAt_cons : OpensAt b (s :: segments) ↔ s.same = true ∨ b = (0, 0) := by
  simp [OpensAt]

theorem closesAt_concat :
    ClosesAt p c (segments ++ [s]) ↔ s.same = true ∨ c = (p.old.size, p.new.size) := by
  simp [ClosesAt]

theorem closesAt_singleton :
    ClosesAt p c [s] ↔ s.same = true ∨ c = (p.old.size, p.new.size) := by
  simp [ClosesAt]

theorem closesAt_append {behind : List Segment} (hne : behind ≠ []) :
    ClosesAt p c (segments ++ behind) ↔ ClosesAt p c behind := by
  rw [ClosesAt, ClosesAt, List.getLast?_append_of_ne_nil _ hne]

theorem Hunk.Fits.le {hunk : Hunk} (h : Hunk.Fits p a hunk c) : a ≤ c := by
  obtain ⟨b, hskips, -, htiles⟩ := h.tiles
  exact hskips.le.trans (htiles.le Segment.Fits.le)

theorem tiles_ifChanged {hunk : Hunk} (hskips : Skips p a b)
    (h : Tiles (Segment.Fits p) b hunk c) (hopens : OpensAt b hunk) (hcloses : ClosesAt p c hunk) :
    ∃ d, Tiles (Hunk.Fits p) a (Hunk.ifChanged hunk) d ∧ Skips p d c := by
  have hfits : hunk ≠ [] → Hunk.Fits p a hunk c := fun hne =>
    ⟨hne, hcloses, b, hskips, hopens, h⟩
  match hunk, h, hfits with
  | [], h, _ => exact ⟨a, .nil a, tiles_nil_iff.1 h ▸ hskips⟩
  | [s], h, hfits =>
    rw [Hunk.ifChanged]
    split
    · next hsame =>
      have hfits := tiles_singleton_iff.1 h
      exact ⟨a, .nil a, hskips.trans (hfits.skips_all hsame)⟩
    · exact ⟨c, tiles_singleton_iff.2 (hfits (List.cons_ne_nil _ _)), .refl p c⟩
  | s :: s' :: rest, h, hfits =>
    exact ⟨c, tiles_singleton_iff.2 (hfits (List.cons_ne_nil _ _)), .refl p c⟩

/-- Hunks show segments that follow one another, and leave lines out. -/
theorem tiles_divide (hskips : Skips p a b) (hcurrent : Tiles (Segment.Fits p) b current.reverse c)
    (h : Tiles (Segment.Fits p) c segments d) (hopens : OpensAt b (current.reverse ++ segments))
    (hcloses : ClosesAt p d (current.reverse ++ segments)) :
    ∃ e, Tiles (Hunk.Fits p) a (divide current segments) e ∧ Skips p e d := by
  fun_induction divide current segments generalizing a b c with
  | case1 current =>
    obtain rfl := tiles_nil_iff.1 h
    rw [List.append_nil] at hopens hcloses
    exact tiles_ifChanged hskips hcurrent hopens hcloses
  | case2 current s rest hlong ih =>
    obtain ⟨hsame, hlong⟩ := hlong
    obtain ⟨e, hs, h⟩ := tiles_cons_iff.1 h
    have hahead := hs.contextAhead hsame
    have hgap := hs.skips hsame (m := min s.oldSize context) (n := s.oldSize - context)
      (by simp only [context] at *; omega) (Nat.sub_le _ _)
    have hcloses' : ClosesAt p d ([s.contextBehind] ++ rest) := by
      rw [closesAt_append (List.cons_ne_nil _ _)] at hcloses
      cases rest with
      | nil => exact closesAt_singleton.2 (.inl hsame)
      | cons next rest => exact (closesAt_append (List.cons_ne_nil _ _)).2 hcloses
    obtain ⟨e', htiles, hend⟩ := ih hgap (tiles_singleton_iff.2 (hs.contextBehind hsame)) h
      (opensAt_cons.2 (.inl hsame)) hcloses'
    refine ⟨e', .cons ⟨by simp, ?_, b, hskips, ?_, ?_⟩ htiles, hend⟩
    · rw [List.reverse_cons]
      exact closesAt_concat.2 (.inl hsame)
    · rw [List.reverse_cons]
      cases hreverse : current.reverse with
      | nil => exact opensAt_cons.2 (.inl hsame)
      | cons first back =>
        rw [hreverse] at hopens
        exact opensAt_cons.2 (opensAt_cons.1 hopens)
    · rw [List.reverse_cons]
      exact hcurrent.append (tiles_singleton_iff.2 hahead)
  | case3 current s rest hshort ih =>
    obtain ⟨e, hs, h⟩ := tiles_cons_iff.1 h
    have hcurrent' := hcurrent.append (tiles_singleton_iff.2 hs)
    rw [← List.singleton_append, ← List.append_assoc, ← List.reverse_cons] at hopens hcloses
    rw [← List.reverse_cons] at hcurrent'
    exact ih hskips hcurrent' h hopens hcloses

theorem trimEnd_ne_nil (h : segments ≠ []) : trimEnd segments ≠ [] := by
  fun_cases trimEnd segments <;> simp_all

/-- The last lines of a list of segments may be left out, where they stay the same. -/
theorem tiles_trimEnd (h : Tiles (Segment.Fits p) a segments (p.old.size, p.new.size)) :
    ∃ b, Tiles (Segment.Fits p) a (trimEnd segments) b ∧ ClosesAt p b (trimEnd segments) ∧
      Skips p b (p.old.size, p.new.size) := by
  fun_induction trimEnd segments generalizing a with
  | case1 => exact ⟨_, h, closesAt_nil p _, .refl p _⟩
  | case2 s hsame =>
    have hs := tiles_singleton_iff.1 h
    refine ⟨_, tiles_singleton_iff.2 (hs.contextAhead hsame),
      closesAt_singleton.2 (.inl hsame), ?_⟩
    have hrest := hs.skips hsame (Nat.min_le_left s.oldSize context) (Nat.le_refl _)
    rwa [← hs.stop_eq hsame] at hrest
  | case3 s hsame => exact ⟨_, h, closesAt_singleton.2 (.inr rfl), .refl p _⟩
  | case4 s rest hrest ih =>
    obtain ⟨b, hs, h⟩ := tiles_cons_iff.1 h
    obtain ⟨d, htiles, hcloses, hskips⟩ := ih h
    have hne : trimEnd rest ≠ [] := trimEnd_ne_nil hrest
    refine ⟨d, .cons hs htiles, ?_, hskips⟩
    rw [← List.singleton_append]
    exact (closesAt_append hne).2 hcloses

theorem OpensAt.trimEnd (h : OpensAt b segments) : OpensAt b (trimEnd segments) := by
  fun_cases Diff.trimEnd segments with
  | case1 => exact h
  | case2 s hsame => exact opensAt_cons.2 (.inl hsame)
  | case3 s hsame => exact h
  | case4 s rest hrest => exact opensAt_cons.2 (opensAt_cons.1 h)

/-- The first lines of a list of segments may be left out, where they stay the same. -/
theorem tiles_trimStart (h : Tiles (Segment.Fits p) (0, 0) segments c) :
    ∃ b, Skips p (0, 0) b ∧ OpensAt b (trimStart segments) ∧
      Tiles (Segment.Fits p) b (trimStart segments) c := by
  cases segments with
  | nil => exact ⟨_, .refl p _, opensAt_nil _, h⟩
  | cons s rest =>
    rw [trimStart]
    split
    · next hsame =>
      obtain ⟨b, hs, h⟩ := tiles_cons_iff.1 h
      exact ⟨_, hs.skips hsame (Nat.zero_le _) (Nat.sub_le s.oldSize context),
        opensAt_cons.2 (.inl hsame), .cons (hs.contextBehind hsame) h⟩
    · exact ⟨_, .refl p _, opensAt_cons.2 (.inr rfl), h⟩

/-- The hunks of two texts show their lines in their places, up to lines that both share. -/
theorem exists_tiles_hunks (p : Pair) :
    ∃ e, Tiles (Hunk.Fits p) (0, 0) (hunks p.segments) e ∧
      Skips p e (p.old.size, p.new.size) := by
  obtain ⟨b, hstart, hopens, h⟩ := tiles_trimStart (tiles_segments p)
  obtain ⟨c, h, hcloses, hend⟩ := tiles_trimEnd h
  have hdivide : ∃ e, Tiles (Hunk.Fits p) (0, 0)
      (divide [] (trimEnd (trimStart p.segments))) e ∧ Skips p e c :=
    tiles_divide hstart (.nil b) h hopens.trimEnd hcloses
  obtain ⟨e, hdivide, hlast⟩ := hdivide
  exact ⟨e, hdivide, hlast.trans hend⟩

end BlockEdit.Diff
