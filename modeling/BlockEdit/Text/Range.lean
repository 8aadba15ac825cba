/-!
# Tables of character ranges

A character property is given as an array of closed ranges of code points.
-/

namespace BlockEdit.Text

/-- Closed ranges of code points in increasing order. -/
abbrev RangeTable := Array (Nat × Nat)

/-- The character lies in one of the ranges. -/
def RangeTable.contains (table : RangeTable) (c : Char) : Bool :=
  table.any fun (lo, hi) => lo ≤ c.toNat && c.toNat ≤ hi

end BlockEdit.Text
