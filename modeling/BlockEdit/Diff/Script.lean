import BlockEdit.Diff.Line

/-!
# Edit scripts

A script tells how the lines of one text become the lines of another: runs of lines that both
share, that are deleted, or that are inserted. Each run (`Op`) names its place in both texts.
This file also measures what two texts share ahead of and behind a pair of places.
-/

namespace BlockEdit.Diff

/-- The lines of the two texts that are compared. -/
structure Pair where
  old : Array String
  new : Array String

/-- What a run of lines is. -/
inductive Kind where
  | equal
  | delete
  | insert
  deriving DecidableEq, Repr

/-- A run of lines: its place and its size in the old and in the new text. -/
structure Op where
  kind : Kind
  oldStart : Nat
  oldSize : Nat
  newStart : Nat
  newSize : Nat
  deriving DecidableEq, Repr

namespace Op

/-- The end of a run in the old text. -/
def oldStop (op : Op) : Nat := op.oldStart + op.oldSize

/-- The end of a run in the new text. -/
def newStop (op : Op) : Nat := op.newStart + op.newSize

/-- `n` lines that both texts share. -/
def equal (oldStart newStart n : Nat) : Op := ⟨.equal, oldStart, n, newStart, n⟩

/-- `n` lines that only the old text has. -/
def delete (oldStart n newStart : Nat) : Op := ⟨.delete, oldStart, n, newStart, 0⟩

/-- `n` lines that only the new text has. -/
def insert (oldStart newStart n : Nat) : Op := ⟨.insert, oldStart, 0, newStart, n⟩

end Op

namespace Pair

/-- Of the `n` lines from `i` on in the old text and from `j` on in the new one, the number that
agree before the first difference. -/
def sharedAhead (p : Pair) (i j : Nat) : Nat → Nat
  | 0 => 0
  | n + 1 => if p.old[i]? = p.new[j]? then p.sharedAhead (i + 1) (j + 1) n + 1 else 0

/-- Of the `n` lines in front of `i` in the old text and of `j` in the new one, the number that
agree behind the last difference. -/
def sharedBehind (p : Pair) (i j : Nat) : Nat → Nat
  | 0 => 0
  | n + 1 => if p.old[i - 1]? = p.new[j - 1]? then p.sharedBehind (i - 1) (j - 1) n + 1 else 0

theorem sharedAhead_le (p : Pair) (i j n : Nat) : p.sharedAhead i j n ≤ n := by
  induction n generalizing i j with
  | zero => simp [sharedAhead]
  | succ n ih =>
    have := ih (i + 1) (j + 1)
    rw [sharedAhead]
    split <;> omega

theorem sharedBehind_le (p : Pair) (i j n : Nat) : p.sharedBehind i j n ≤ n := by
  induction n generalizing i j with
  | zero => simp [sharedBehind]
  | succ n ih =>
    have := ih (i - 1) (j - 1)
    rw [sharedBehind]
    split <;> omega

end Pair

end BlockEdit.Diff
