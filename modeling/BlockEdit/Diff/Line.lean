/-!
# Lines of a diff

A diff compares texts line by line. A line ends with a line feed, with a carriage return and a line
feed, or with a lone carriage return, and keeps its ending, so the lines of a text joined are the
text (`flatten_splitFrom`). A last line may lack an ending.
-/

namespace BlockEdit.Diff

/-- The lines of a text, when `line` holds the characters of the current one in reverse. -/
def splitFrom (line : List Char) : List Char → List (List Char)
  | [] => if line.isEmpty then [] else [line.reverse]
  | '\r' :: '\n' :: cs => ('\n' :: '\r' :: line).reverse :: splitFrom [] cs
  | '\r' :: cs => ('\r' :: line).reverse :: splitFrom [] cs
  | '\n' :: cs => ('\n' :: line).reverse :: splitFrom [] cs
  | c :: cs => splitFrom (c :: line) cs

/-- The lines of a text with their endings. -/
def lines (text : String) : Array String := ((splitFrom [] text.toList).map String.ofList).toArray

/-- The line has an ending. -/
def isEnded (line : String) : Bool :=
  line.toList.getLast? = some '\n' || line.toList.getLast? = some '\r'

theorem flatten_splitFrom (line cs : List Char) :
    (splitFrom line cs).flatten = line.reverse ++ cs := by
  fun_induction splitFrom line cs <;> simp_all [List.isEmpty_iff]

end BlockEdit.Diff
