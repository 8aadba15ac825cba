/-!
# Blank characters

The characters with the property White_Space. A text is blank when it has no others.
-/

namespace BlockEdit.Text

/-- Characters with the property White_Space. -/
def isBlank (c : Char) : Bool :=
  let n := c.toNat
  (0x9 ≤ n && n ≤ 0xd) || n == 0x20 || n == 0x85 || n == 0xa0 || n == 0x1680 ||
    (0x2000 ≤ n && n ≤ 0x200a) || n == 0x2028 || n == 0x2029 || n == 0x202f || n == 0x205f ||
    n == 0x3000

/-- A text of white space only, such as the empty one. -/
def isBlankText (s : String) : Bool := s.toList.all isBlank

end BlockEdit.Text
