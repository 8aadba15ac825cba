import BlockEdit.Diff.Script

/-!
# The middle of a shortest script

A script between two stretches of lines is a path through a grid: a step to the right deletes an
old line, a step down inserts a new one, and a diagonal step keeps a line that both share. Shortest
paths are grown from both corners, one deletion or insertion at a time; for each diagonal the
frontier holds how far right the furthest path reaches. Where the two frontiers meet, a shortest
path passes, and `midpoint?` gives that point.
-/

namespace BlockEdit.Diff

/-- For each diagonal, how far right the furthest path on it reaches; zero where none was tried. -/
structure Frontier where
  offset : Nat
  reach : Array Nat

namespace Frontier

/-- A frontier for the diagonals from `-n` to `n`. -/
def empty (n : Nat) : Frontier := ⟨n, Array.replicate (2 * n + 1) 0⟩

/-- The reach on diagonal `k`. -/
def get (f : Frontier) (k : Int) : Nat := f.reach.getD (k + f.offset).toNat 0

/-- The frontier with the reach `x` on diagonal `k`. -/
def set (f : Frontier) (k : Int) (x : Nat) : Frontier :=
  { f with reach := f.reach.setIfInBounds (k + f.offset).toNat x }

/-- Where a path of `d` steps enters diagonal `k`: from the neighbour that reaches further. -/
def enter (f : Frontier) (d k : Int) : Nat :=
  if k = -d ∨ (k ≠ d ∧ f.get (k - 1) < f.get (k + 1)) then f.get (k + 1) else f.get (k - 1) + 1

end Frontier

/-- A stretch of each text, from the first offsets up to the second ones. -/
structure Box where
  oldStart : Nat
  oldStop : Nat
  newStart : Nat
  newStop : Nat
  deriving DecidableEq, Repr

namespace Box

/-- The number of old lines. -/
def oldSize (b : Box) : Nat := b.oldStop - b.oldStart

/-- The number of new lines. -/
def newSize (b : Box) : Nat := b.newStop - b.newStart

/-- The number of lines on both sides. -/
def size (b : Box) : Nat := b.oldSize + b.newSize

/-- How many diagonals the far corner lies off the near one. -/
def delta (b : Box) : Int := (b.oldSize : Int) - b.newSize

/-- The far corner lies an odd number of diagonals off the near one. -/
def isOdd (b : Box) : Bool := (b.oldSize + b.newSize) % 2 == 1

end Box

/-- A place in the old and in the new text. -/
abbrev Place := Nat × Nat

/-- The diagonals that paths of `d` steps end on, from the highest down. -/
def diagonals (d : Nat) : List Int :=
  (List.range (d + 1)).map fun (i : Nat) => (d : Int) - 2 * (i : Int)

/-- Grow the forward paths of `d` steps on the given diagonals; stop at a diagonal on which they
meet the backward paths. -/
def growForward (p : Pair) (b : Box) (d : Nat) (back : Frontier) :
    List Int → Frontier → Option Place × Frontier
  | [], front => (none, front)
  | k :: ks, front =>
    let x := front.enter d k
    let y := (x - k).toNat
    let run :=
      if x < b.oldSize ∧ y < b.newSize then
        p.sharedAhead (b.oldStart + x) (b.newStart + y) (min (b.oldSize - x) (b.newSize - y))
      else 0
    let front := front.set k (x + run)
    if b.isOdd ∧ (k - b.delta).natAbs + 1 ≤ d ∧
        b.oldSize ≤ front.get k + back.get (b.delta - k) then
      (some (b.oldStart + x, b.newStart + y), front)
    else growForward p b d back ks front

/-- Grow the backward paths of `d` steps on the given diagonals; stop at a diagonal on which they
meet the forward paths. -/
def growBackward (p : Pair) (b : Box) (d : Nat) (front : Frontier) :
    List Int → Frontier → Option Place × Frontier
  | [], back => (none, back)
  | k :: ks, back =>
    let x := back.enter d k
    let y := (x - k).toNat
    let run :=
      if x < b.oldSize ∧ y < b.newSize then
        p.sharedBehind (b.oldStop - x) (b.newStop - y) (min (b.oldSize - x) (b.newSize - y))
      else 0
    let back := back.set k (x + run)
    if !b.isOdd ∧ (k - b.delta).natAbs ≤ d ∧
        b.oldSize ≤ back.get k + front.get (b.delta - k) then
      (some (b.oldStop - (x + run), b.newStop - (y + run)), back)
    else growBackward p b d front ks back

/-- Grow paths of `d`, `d + 1`, … steps from both corners, for `rounds` rounds. -/
def growBoth (p : Pair) (b : Box) : (rounds d : Nat) → (front back : Frontier) → Option Place
  | 0, _, _, _ => none
  | rounds + 1, d, front, back =>
    match growForward p b d back (diagonals d) front with
    | (some place, _) => some place
    | (none, front) =>
      match growBackward p b d front (diagonals d) back with
      | (some place, _) => some place
      | (none, back) => growBoth p b rounds (d + 1) front back

/-- A place in the middle of a shortest path through a box. -/
def midpoint? (p : Pair) (b : Box) : Option Place :=
  let most := (b.size + 1) / 2
  growBoth p b (most + 1) 0 (.empty (most + 1)) (.empty (most + 1))

end BlockEdit.Diff
