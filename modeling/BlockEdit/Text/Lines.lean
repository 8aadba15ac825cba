/-!
# Lines of a text

Two readings of "line" are used on text that is shown to a person:

* `lines cs` cuts behind each line feed and leaves out the line feed itself, with one carriage
  return in front of it; a last line without a line feed counts, an empty rest does not;
* `lineFeeds cs` counts the line feeds, which numbers the lines of a document.
-/

namespace BlockEdit.Text

/-- A line without the carriage return that ends it. -/
def dropFinalReturn (line : List Char) : List Char :=
  if line.getLast? = some '\r' then line.dropLast else line

/-- The lines of a text, when `line` holds the characters of the current one in reverse. -/
def linesFrom (line : List Char) : List Char → List (List Char)
  | [] => if line.isEmpty then [] else [line.reverse]
  | '\n' :: cs => dropFinalReturn line.reverse :: linesFrom [] cs
  | c :: cs => linesFrom (c :: line) cs

/-- The lines of a text without what ends them. -/
def lines (cs : List Char) : List (List Char) := linesFrom [] cs

/-- The number of line feeds in a text. -/
def lineFeeds (cs : List Char) : Nat := cs.count '\n'

@[simp] theorem lineFeeds_append (a b : List Char) :
    lineFeeds (a ++ b) = lineFeeds a + lineFeeds b := by
  simp [lineFeeds]

end BlockEdit.Text
