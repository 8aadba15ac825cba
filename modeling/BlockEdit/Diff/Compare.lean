import BlockEdit.Diff.Midpoint

/-!
# Comparing two texts

`Pair.compare` finds a shortest script by division: what two stretches share at their heads and at
their tails is kept; of the rest, the part in front of the midpoint and the part behind it are
compared on their own. Where one side is empty, the other is deleted or inserted as a whole.
-/

namespace BlockEdit.Diff

/-- The place divides the box into two smaller ones. -/
def Box.divides (b : Box) (place : Place) : Bool :=
  b.oldStart ≤ place.1 && place.1 ≤ b.oldStop && b.newStart ≤ place.2 && place.2 ≤ b.newStop &&
    place != (b.oldStart, b.newStart) && place != (b.oldStop, b.newStop)

/-- The part of a box in front of a place. -/
def Box.before (b : Box) (place : Place) : Box := ⟨b.oldStart, place.1, b.newStart, place.2⟩

/-- The part of a box behind a place. -/
def Box.behind (b : Box) (place : Place) : Box := ⟨place.1, b.oldStop, place.2, b.newStop⟩

theorem Box.size_before_lt {b : Box} {place : Place} (h : b.divides place) :
    (b.before place).size < b.size := by
  obtain ⟨x, y⟩ := place
  simp only [divides, Bool.and_eq_true, decide_eq_true_eq, bne_iff_ne, ne_eq, Prod.mk.injEq] at h
  simp only [before, size, oldSize, newSize]
  omega

theorem Box.size_behind_lt {b : Box} {place : Place} (h : b.divides place) :
    (b.behind place).size < b.size := by
  obtain ⟨x, y⟩ := place
  simp only [divides, Bool.and_eq_true, decide_eq_true_eq, bne_iff_ne, ne_eq, Prod.mk.injEq] at h
  simp only [behind, size, oldSize, newSize]
  omega

namespace Pair

/-- The number of lines that the two sides of a box share at their heads. -/
def head (p : Pair) (b : Box) : Nat :=
  p.sharedAhead b.oldStart b.newStart (min b.oldSize b.newSize)

/-- The number of lines that the two sides of a box share at their tails. -/
def tail (p : Pair) (b : Box) : Nat :=
  p.sharedBehind b.oldStop b.newStop (min b.oldSize b.newSize)

/-- A box without the lines that are shared at its head. -/
def dropHead (p : Pair) (b : Box) : Box :=
  { b with oldStart := b.oldStart + p.head b, newStart := b.newStart + p.head b }

/-- A box without the lines that are shared at its tail. -/
def dropTail (p : Pair) (b : Box) : Box :=
  { b with oldStop := b.oldStop - p.tail b, newStop := b.newStop - p.tail b }

theorem size_dropHead_le (p : Pair) (b : Box) : (p.dropHead b).size ≤ b.size := by
  simp only [dropHead, Box.size, Box.oldSize, Box.newSize]
  omega

theorem size_dropTail_le (p : Pair) (b : Box) : (p.dropTail b).size ≤ b.size := by
  simp only [dropTail, Box.size, Box.oldSize, Box.newSize]
  omega

/-- A run of shared lines, unless it is empty. -/
def kept (oldStart newStart n : Nat) : List Op :=
  if n = 0 then [] else [.equal oldStart newStart n]

/-- A script for the two sides of a box. -/
def compareBox (p : Pair) (b : Box) : List Op :=
  let inner := p.dropHead b
  let core := p.dropTail inner
  let middle :=
    if core.oldSize = 0 ∧ core.newSize = 0 then []
    else if core.newSize = 0 then [.delete core.oldStart core.oldSize core.newStart]
    else if core.oldSize = 0 then [.insert core.oldStart core.newStart core.newSize]
    else
      match midpoint? p core with
      | some place =>
        if _h : core.divides place then
          compareBox p (core.before place) ++ compareBox p (core.behind place)
        else
          [.delete core.oldStart core.oldSize core.newStart,
            .insert core.oldStart core.newStart core.newSize]
      | none =>
        [.delete core.oldStart core.oldSize core.newStart,
          .insert core.oldStart core.newStart core.newSize]
  kept b.oldStart b.newStart (p.head b) ++ middle ++
    kept core.oldStop core.newStop (p.tail inner)
termination_by b.size
decreasing_by
  · have h1 := Box.size_before_lt _h
    have h2 := p.size_dropTail_le (p.dropHead b)
    have h3 := p.size_dropHead_le b
    exact Nat.lt_of_lt_of_le h1 (Nat.le_trans h2 h3)
  · have h1 := Box.size_behind_lt _h
    have h2 := p.size_dropTail_le (p.dropHead b)
    have h3 := p.size_dropHead_le b
    exact Nat.lt_of_lt_of_le h1 (Nat.le_trans h2 h3)

/-- A script for the two texts. -/
def compare (p : Pair) : List Op := p.compareBox ⟨0, p.old.size, 0, p.new.size⟩

end Pair

end BlockEdit.Diff
