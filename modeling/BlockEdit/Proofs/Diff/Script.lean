import BlockEdit.Diff.Compaction
import Mathlib.Data.List.Basic
import Mathlib.Data.Nat.Basic
import Mathlib.Order.Basic

/-!
# Scripts that lead from one text to the other

A script leads from the first lines of two texts to their ends when its runs follow one another
(`Tiles`) and each one fits its place (`Op.Fits`): shared lines are the same in both texts, and each
run names its true place on the side that has its lines. On the other side it may name any place,
and after a compaction it does.

The script of `Pair.compare` is of that kind (`tiles_compare`), and so it is after runs have been
moved up and down: a step past shared lines, past a run of the other kind, or into one of its own
kind leaves a list of runs that tiles the same stretch (`tiles_compact`).
-/

namespace BlockEdit.Diff

/-- The pieces follow one another from one place to another, and each fits where it is. -/
inductive Tiles {α : Type} (fits : Place → α → Place → Prop) : Place → List α → Place → Prop
  | nil (a : Place) : Tiles fits a [] a
  | cons {a b c : Place} {x : α} {xs : List α} (h : fits a x b) (hs : Tiles fits b xs c) :
    Tiles fits a (x :: xs) c

section Tiles

variable {α : Type} {fits : Place → α → Place → Prop} {a b c : Place} {x : α} {xs ys : List α}

theorem tiles_cons_iff : Tiles fits a (x :: xs) c ↔ ∃ b, fits a x b ∧ Tiles fits b xs c :=
  ⟨fun h => by cases h with | cons h hs => exact ⟨_, h, hs⟩, fun ⟨_, h, hs⟩ => .cons h hs⟩

theorem tiles_nil_iff : Tiles fits a [] c ↔ a = c :=
  ⟨fun h => by cases h; rfl, fun h => h ▸ .nil a⟩

theorem tiles_append_iff :
    Tiles fits a (xs ++ ys) c ↔ ∃ b, Tiles fits a xs b ∧ Tiles fits b ys c := by
  induction xs generalizing a with
  | nil => simp [tiles_nil_iff]
  | cons x xs ih =>
    simp only [List.cons_append, tiles_cons_iff, ih]
    constructor
    · rintro ⟨b, h, d, hs, hys⟩
      exact ⟨d, ⟨b, h, hs⟩, hys⟩
    · rintro ⟨d, ⟨b, h, hs⟩, hys⟩
      exact ⟨b, h, d, hs, hys⟩

theorem tiles_singleton_iff : Tiles fits a [x] c ↔ fits a x c := by
  simp [tiles_cons_iff, tiles_nil_iff]

theorem Tiles.append (h : Tiles fits a xs b) (h' : Tiles fits b ys c) : Tiles fits a (xs ++ ys) c :=
  tiles_append_iff.2 ⟨b, h, h'⟩

/-- The last pieces may be exchanged for others that lead from and to the same places. -/
theorem Tiles.exchange {zs : List α} (h : Tiles fits a (xs ++ ys) c)
    (hzs : ∀ b, Tiles fits b ys c → Tiles fits b zs c) : Tiles fits a (xs ++ zs) c := by
  obtain ⟨b, hxs, hys⟩ := tiles_append_iff.1 h
  exact hxs.append (hzs b hys)

/-- The last piece ends where all of them do. -/
theorem Tiles.last (h : Tiles fits a xs c) (hx : x ∈ xs.getLast?) : ∃ b, fits b x c := by
  obtain ⟨ys, rfl⟩ := List.getLast?_eq_some_iff.1 hx
  obtain ⟨b, -, hlast⟩ := tiles_append_iff.1 h
  exact ⟨b, tiles_singleton_iff.1 hlast⟩

theorem Tiles.le (hle : ∀ {a b : Place} {x : α}, fits a x b → a ≤ b) (h : Tiles fits a xs c) :
    a ≤ c := by
  induction h with
  | nil a => exact le_refl a
  | cons h _ ih => exact le_trans (hle h) ih

end Tiles

/-! ### Lines that agree -/

namespace Pair

variable {p : Pair} {i j m n k t : Nat}

/-- The `n` lines from a place on are the same in both texts. -/
def Agree (p : Pair) (i j n : Nat) : Prop := ∀ t < n, p.old[i + t]? = p.new[j + t]?

theorem agree_zero (p : Pair) (i j : Nat) : p.Agree i j 0 := fun _ h => absurd h (Nat.not_lt_zero _)

theorem Agree.append (h : p.Agree i j m) (h' : p.Agree (i + m) (j + m) n) :
    p.Agree i j (m + n) := fun t ht => by
  by_cases htm : t < m
  · exact h t htm
  · have := h' (t - m) (by omega)
    rwa [show i + m + (t - m) = i + t by omega, show j + m + (t - m) = j + t by omega] at this

theorem Agree.first (h : p.Agree i j n) (hm : m ≤ n) : p.Agree i j m :=
  fun t ht => h t (by omega)

theorem Agree.last (h : p.Agree i j (m + n)) : p.Agree (i + m) (j + m) n := fun t ht => by
  have := h (m + t) (by omega)
  rwa [← Nat.add_assoc, ← Nat.add_assoc] at this

theorem agree_sharedAhead (p : Pair) (i j n : Nat) : p.Agree i j (p.sharedAhead i j n) := by
  induction n generalizing i j with
  | zero => exact agree_zero p i j
  | succ n ih =>
    rw [sharedAhead]
    split
    · next hline =>
      rw [Nat.add_comm]
      refine Agree.append (fun t ht => ?_) (ih (i + 1) (j + 1))
      rwa [Nat.lt_one_iff.1 ht]
    · exact agree_zero p i j

theorem agree_sharedBehind (hi : n ≤ i) (hj : n ≤ j) :
    p.Agree (i - p.sharedBehind i j n) (j - p.sharedBehind i j n) (p.sharedBehind i j n) := by
  induction n generalizing i j with
  | zero => exact agree_zero p _ _
  | succ n ih =>
    rw [sharedBehind]
    split
    · next hline =>
      have hle := p.sharedBehind_le (i - 1) (j - 1) n
      have hrest := ih (i := i - 1) (j := j - 1) (by omega) (by omega)
      generalize p.sharedBehind (i - 1) (j - 1) n = k at hle hrest
      refine Agree.append ?_ fun t ht => ?_
      · rwa [show i - (k + 1) = i - 1 - k by omega, show j - (k + 1) = j - 1 - k by omega]
      · rwa [show i - (k + 1) + k + t = i - 1 by omega, show j - (k + 1) + k + t = j - 1 by omega]
    · exact agree_zero p _ _

end Pair

/-! ### Runs in their places -/

/-- A run fits a place, and ends at another one. -/
inductive Op.Fits (p : Pair) : Place → Op → Place → Prop
  | equal {i j n : Nat} (h : p.Agree i j n) (hn : 0 < n) :
    Fits p (i, j) (.equal i j n) (i + n, j + n)
  | delete {i j n : Nat} (k : Nat) (hn : 0 < n) : Fits p (i, j) (.delete i n k) (i + n, j)
  | insert {i j n : Nat} (k : Nat) (hn : 0 < n) : Fits p (i, j) (.insert k j n) (i, j + n)

namespace Pair

variable {p : Pair} {i j m n k : Nat} {a b c d : Place} {box : Box} {op q run next : Op}
  {before after : List Op} {kind : Kind}

theorem tiles_kept (h : p.Agree i j n) : Tiles (Op.Fits p) (i, j) (kept i j n) (i + n, j + n) := by
  rw [kept]
  split
  · next hn => rw [hn]; exact .nil _
  · next hn => exact tiles_singleton_iff.2 (.equal h (Nat.pos_of_ne_zero hn))

theorem fits_delete (h : i < m) : Op.Fits p (i, j) (.delete i (m - i) k) (m, j) := by
  have hdelete := Op.Fits.delete (p := p) (i := i) (j := j) k (Nat.sub_pos_of_lt h)
  rwa [Nat.add_sub_cancel' (Nat.le_of_lt h)] at hdelete

theorem fits_insert (h : j < n) : Op.Fits p (i, j) (.insert k j (n - j)) (i, n) := by
  have hinsert := Op.Fits.insert (p := p) (i := i) (j := j) k (Nat.sub_pos_of_lt h)
  rwa [Nat.add_sub_cancel' (Nat.le_of_lt h)] at hinsert

/-- The script between what is kept at the ends of a box, if smaller boxes are compared as they
should be. -/
theorem tiles_middle (hold : box.oldStart ≤ box.oldStop) (hnew : box.newStart ≤ box.newStop)
    (hsmaller : ∀ {b : Box}, b.size < box.size → b.oldStart ≤ b.oldStop → b.newStart ≤ b.newStop →
      Tiles (Op.Fits p) (b.oldStart, b.newStart) (p.compareBox b) (b.oldStop, b.newStop)) :
    Tiles (Op.Fits p) (box.oldStart, box.newStart)
      (if box.oldSize = 0 ∧ box.newSize = 0 then []
      else if box.newSize = 0 then [.delete box.oldStart box.oldSize box.newStart]
      else if box.oldSize = 0 then [.insert box.oldStart box.newStart box.newSize]
      else
        match midpoint? p box with
        | some place =>
          if box.divides place then
            p.compareBox (box.before place) ++ p.compareBox (box.behind place)
          else
            [.delete box.oldStart box.oldSize box.newStart,
              .insert box.oldStart box.newStart box.newSize]
        | none =>
          [.delete box.oldStart box.oldSize box.newStart,
            .insert box.oldStart box.newStart box.newSize])
      (box.oldStop, box.newStop) := by
  have hold' : box.oldSize = 0 → box.oldStart = box.oldStop := by
    simp only [Box.oldSize]; omega
  have hnew' : box.newSize = 0 → box.newStart = box.newStop := by
    simp only [Box.newSize]; omega
  have hdelete : box.oldSize ≠ 0 → ∀ j, Op.Fits p (box.oldStart, j)
      (.delete box.oldStart box.oldSize box.newStart) (box.oldStop, j) := fun h j =>
    fits_delete (by simp only [Box.oldSize] at h; omega)
  have hinsert : box.newSize ≠ 0 → ∀ i, Op.Fits p (i, box.newStart)
      (.insert box.oldStart box.newStart box.newSize) (i, box.newStop) := fun h i =>
    fits_insert (by simp only [Box.newSize] at h; omega)
  split_ifs with hboth hn hm
  · rw [hold' hboth.1, hnew' hboth.2]
    exact .nil _
  · rw [← hnew' hn]
    exact tiles_singleton_iff.2 (hdelete (fun hm => hboth ⟨hm, hn⟩) _)
  · rw [← hold' hm]
    exact tiles_singleton_iff.2 (hinsert hn _)
  have hreplace := Tiles.cons (hdelete hm box.newStart)
    (tiles_singleton_iff.2 (hinsert hn box.oldStop))
  cases midpoint? p box with
  | none => exact hreplace
  | some place =>
    simp only
    split_ifs with hdivides
    · have hbefore := Box.size_before_lt hdivides
      have hbehind := Box.size_behind_lt hdivides
      simp only [Box.divides, Bool.and_eq_true, decide_eq_true_eq] at hdivides
      exact .append (hsmaller hbefore (by simp only [Box.before]; omega)
        (by simp only [Box.before]; omega)) (hsmaller hbehind (by simp only [Box.behind]; omega)
        (by simp only [Box.behind]; omega))
    · exact hreplace

/-- The script for a box leads from its first corner to its last one. -/
theorem tiles_compareBox (hold : box.oldStart ≤ box.oldStop) (hnew : box.newStart ≤ box.newStop) :
    Tiles (Op.Fits p) (box.oldStart, box.newStart) (p.compareBox box)
      (box.oldStop, box.newStop) := by
  induction hsize : box.size using Nat.strongRecOn generalizing box with
  | ind size ih =>
    subst hsize
    have hhead : p.head box ≤ min box.oldSize box.newSize := p.sharedAhead_le ..
    have htail : p.tail (p.dropHead box) ≤ min (box.oldStop - (box.oldStart + p.head box))
        (box.newStop - (box.newStart + p.head box)) := p.sharedBehind_le ..
    have hagree : p.Agree box.oldStart box.newStart (p.head box) :=
      agree_sharedAhead p _ _ _
    have hagree' : p.Agree (box.oldStop - p.tail (p.dropHead box))
        (box.newStop - p.tail (p.dropHead box)) (p.tail (p.dropHead box)) := by
      refine agree_sharedBehind ?_ ?_ <;>
        simp only [dropHead, Box.oldSize, Box.newSize] <;> omega
    simp only [Box.oldSize, Box.newSize] at hhead
    have hcore := p.size_dropTail_le (p.dropHead box)
    have hinner := p.size_dropHead_le box
    rw [compareBox]
    refine .append (b := ((p.dropTail (p.dropHead box)).oldStop,
      (p.dropTail (p.dropHead box)).newStop)) (.append (tiles_kept hagree) ?_) ?_
    · have hold' : box.oldStart + p.head box ≤ box.oldStop - p.tail (p.dropHead box) := by omega
      have hnew' : box.newStart + p.head box ≤ box.newStop - p.tail (p.dropHead box) := by omega
      change (p.dropTail (p.dropHead box)).oldStart ≤ (p.dropTail (p.dropHead box)).oldStop at hold'
      change (p.dropTail (p.dropHead box)).newStart ≤ (p.dropTail (p.dropHead box)).newStop at hnew'
      change Tiles _ ((p.dropTail (p.dropHead box)).oldStart,
        (p.dropTail (p.dropHead box)).newStart) _ _
      have hsize := Nat.le_trans hcore hinner
      generalize p.dropTail (p.dropHead box) = core at hold' hnew' hsize ⊢
      exact tiles_middle hold' hnew' fun hlt hold hnew =>
        ih _ (Nat.lt_of_lt_of_le hlt hsize) hold hnew rfl
    · have hlast := tiles_kept hagree'
      rwa [Nat.sub_add_cancel (by omega), Nat.sub_add_cancel (by omega)] at hlast

/-- The script that is found for two texts leads from their first lines to their ends. -/
theorem tiles_compare (p : Pair) :
    Tiles (Op.Fits p) (0, 0) p.compare (p.old.size, p.new.size) := by
  have h : ∀ box : Box, box.oldStart ≤ box.oldStop → box.newStart ≤ box.newStop →
      Tiles (Op.Fits p) (box.oldStart, box.newStart) (p.compareBox box)
        (box.oldStop, box.newStop) :=
    fun _ => tiles_compareBox
  exact h ⟨0, p.old.size, 0, p.new.size⟩ (Nat.zero_le _) (Nat.zero_le _)

/-! ### A text and itself -/

theorem sharedAhead_self (h : p.old = p.new) (i n : Nat) : p.sharedAhead i i n = n := by
  induction n generalizing i with
  | zero => rfl
  | succ n ih => rw [sharedAhead, h, if_pos rfl, ih]

/-- All lines of a text are shared with itself. -/
theorem compare_self (h : p.old = p.new) : p.compare = kept 0 0 p.old.size := by
  have hhead : p.head ⟨0, p.old.size, 0, p.old.size⟩ = p.old.size := by
    simp only [head, Box.oldSize, Box.newSize, Nat.min_self, Nat.sub_zero]
    exact sharedAhead_self h 0 _
  have hinner : p.dropHead ⟨0, p.old.size, 0, p.old.size⟩ =
      ⟨p.old.size, p.old.size, p.old.size, p.old.size⟩ := by
    simp only [dropHead, hhead, Nat.zero_add]
  have htail : p.tail ⟨p.old.size, p.old.size, p.old.size, p.old.size⟩ = 0 := by
    simp only [tail, Box.oldSize, Nat.sub_self, Nat.zero_min, sharedBehind]
  have hcore : p.dropTail ⟨p.old.size, p.old.size, p.old.size, p.old.size⟩ =
      ⟨p.old.size, p.old.size, p.old.size, p.old.size⟩ := by
    simp only [dropTail, htail, Nat.sub_zero]
  rw [compare, ← h, compareBox]
  simp only [hinner, hcore, hhead, htail, Box.oldSize, Box.newSize, Nat.sub_self, and_self, if_true,
    List.append_nil]
  rw [kept, kept, if_pos rfl, List.append_nil]

end Pair

end BlockEdit.Diff
