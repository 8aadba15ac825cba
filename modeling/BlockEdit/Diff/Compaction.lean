import BlockEdit.Diff.Compare

/-!
# Compaction of a script

An insertion between shared lines can often be moved without changing what the script says: past
shared lines in front of it that equal its own last lines, or past shared lines behind it that
equal its own first lines. Compaction takes each run of one kind as far up and then as far down as
it goes, past runs of the other kind, and joins it with runs of its own kind on the way; first the
deletions, then the insertions. Runs keep the places they were found at, moved by the number of
shared lines they passed.
-/

namespace BlockEdit.Diff

/-- A script with one run picked out. The runs in front of it are in reverse. -/
structure Pick where
  before : List Op
  run : Op
  after : List Op

/-- A bound on the moves past the runs of a list. -/
def weight : List Op → Nat
  | [] => 0
  | op :: ops => op.oldSize + op.newSize + 1 + weight ops

namespace Op

/-- A run moved back by `k` lines. -/
def shiftBack (op : Op) (k : Nat) : Op :=
  { op with oldStart := op.oldStart - k, newStart := op.newStart - k }

/-- A run moved on by `k` lines. -/
def shiftOn (op : Op) (k : Nat) : Op :=
  { op with oldStart := op.oldStart + k, newStart := op.newStart + k }

/-- A run of shared lines without its last `k`. -/
def dropLast (op : Op) (k : Nat) : Op :=
  { op with oldSize := op.oldSize - k, newSize := op.newSize - k }

/-- A run of shared lines with `k` more behind it. -/
def grow (op : Op) (k : Nat) : Op :=
  { op with oldSize := op.oldSize + k, newSize := op.newSize + k }

/-- A run joined with a run of its own kind behind it. -/
def join (op next : Op) : Op :=
  { op with oldSize := op.oldSize + next.oldSize, newSize := op.newSize + next.newSize }

end Op

/-- The runs behind a run that moved up past the last `k` lines of the shared run `q`. -/
def keepBehind (q run : Op) (k : Nat) : List Op → List Op
  | next :: rest =>
    if next.kind = .equal then (next.shiftBack k).grow k :: rest
    else .equal (q.oldStop - k) (run.newStop - k) k :: next :: rest
  | [] => [.equal (q.oldStop - k) (run.newStop - k) k]

/-- The runs in front of a run, in reverse, that moved down past the first `k` lines of the shared
run `q`. -/
def keepAhead (q run : Op) (k : Nat) : List Op → List Op
  | last :: rest =>
    if last.kind = .equal then last.grow k :: rest
    else .equal q.oldStart run.newStart k :: last :: rest
  | [] => [.equal q.oldStart run.newStart k]

namespace Pair

/-- How many lines of the shared run `q` a run behind it can move up past. -/
def slackUp (p : Pair) (q run : Op) : Nat :=
  p.sharedBehind q.oldStop run.newStop (min q.oldSize run.newSize)

/-- How many lines of the shared run `q` a run in front of it can move down past. -/
def slackDown (p : Pair) (q run : Op) : Nat :=
  p.sharedAhead q.oldStart run.newStart (min q.oldSize run.newSize)

/-- Move a run up as far as it goes. -/
def moveUp (p : Pair) (before : List Op) (run : Op) (after : List Op) : Pick :=
  match before with
  | [] => ⟨[], run, after⟩
  | q :: rest =>
    if q.kind = .equal then
      let k := p.slackUp q run
      if _hk : k = 0 then ⟨q :: rest, run, after⟩
      else
        let after := keepBehind q run k after
        if q.oldSize = k then p.moveUp rest (run.shiftBack k) after
        else p.moveUp (q.dropLast k :: rest) (run.shiftBack k) after
    else if q.kind = run.kind then p.moveUp rest (q.join run) after
    else p.moveUp rest run (q :: after)
termination_by weight before
decreasing_by
  · simp only [weight]; omega
  · have h : p.slackUp q run ≤ min q.oldSize run.newSize := p.sharedBehind_le ..
    simp only [weight, Op.dropLast]
    omega
  · simp only [weight]; omega
  · simp only [weight]; omega

/-- Move a run down as far as it goes. -/
def moveDown (p : Pair) (before : List Op) (run : Op) (after : List Op) : Pick :=
  match after with
  | [] => ⟨before, run, []⟩
  | q :: rest =>
    if q.kind = .equal then
      let k := p.slackDown q run
      if _hk : k = 0 then ⟨before, run, q :: rest⟩
      else
        let before := keepAhead q run k before
        if q.oldSize = k then p.moveDown before (run.shiftOn k) rest
        else p.moveDown before (run.shiftOn k) ((q.shiftOn k).dropLast k :: rest)
    else if q.kind = run.kind then p.moveDown before (run.join q) rest
    else p.moveDown (q :: before) run rest
termination_by weight after
decreasing_by
  · simp only [weight]; omega
  · have h : p.slackDown q run ≤ min q.oldSize run.newSize := p.sharedAhead_le ..
    simp only [weight, Op.dropLast, Op.shiftOn]
    omega
  · simp only [weight]; omega
  · simp only [weight]; omega

/-- Compact the runs of one kind in `after`, from left to right, in at most `fuel` moves; `before`
holds the runs in front of them in reverse. -/
def settle (p : Pair) (kind : Kind) : (fuel : Nat) → (before after : List Op) → List Op
  | 0, before, after => before.reverse ++ after
  | _ + 1, before, [] => before.reverse
  | fuel + 1, before, op :: after =>
    if op.kind = kind then
      let up := p.moveUp before op after
      let down := p.moveDown up.before up.run up.after
      p.settle kind fuel (down.run :: down.before) down.after
    else p.settle kind fuel (op :: before) after

/-- More moves than the compaction of one kind makes: each joins two runs or goes on by one. -/
def settleFuel (ops : List Op) : Nat := (weight ops + 1) * (weight ops + 1)

/-- Compact the runs of one kind. -/
def compactKind (p : Pair) (kind : Kind) (ops : List Op) : List Op :=
  p.settle kind (settleFuel ops) [] ops

/-- Compact the deletions of a script and then its insertions. -/
def compact (p : Pair) (ops : List Op) : List Op :=
  p.compactKind .insert (p.compactKind .delete ops)

end Pair

end BlockEdit.Diff
