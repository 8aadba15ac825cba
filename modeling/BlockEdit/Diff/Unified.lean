import BlockEdit.Diff.Segment

/-!
# Unified diffs

A unified diff shows the changes between two texts in hunks. Around each change stand up to three
lines that stay the same; a stretch of more than six such lines divides two hunks. Two lines that
name the file come first, a line with the place and size of both sides opens each hunk, and each
line of text has a mark in front of it: a space, `-` or `+`. Texts without a difference have the
empty diff.
-/

namespace BlockEdit.Diff

/-- The number of unchanged lines that are shown on each side of a change. -/
def context : Nat := 3

/-- A hunk: segments that follow one another. -/
abbrev Hunk := List Segment

namespace Segment

/-- A segment without its first `n` lines. -/
def dropFirst (s : Segment) (n : Nat) : Segment :=
  { s with oldStart := s.oldStart + n, newStart := s.newStart + n,
           oldSize := s.oldSize - n, newSize := s.newSize - n }

/-- The first lines of a segment, as many as context has. -/
def contextAhead (s : Segment) : Segment :=
  { s with oldSize := min s.oldSize context, newSize := min s.newSize context }

/-- The last lines of a segment, as many as context has. -/
def contextBehind (s : Segment) : Segment := s.dropFirst (s.oldSize - context)

end Segment

/-- The segments with the unchanged stretch at the start cut down to its last lines. -/
def trimStart : List Segment → List Segment
  | s :: rest => if s.same then s.contextBehind :: rest else s :: rest
  | [] => []

/-- The segments with the unchanged stretch at the end cut down to its first lines. -/
def trimEnd : List Segment → List Segment
  | [] => []
  | [s] => if s.same then [s.contextAhead] else [s]
  | s :: rest => s :: trimEnd rest

/-- A hunk that shows a change, as the only member of a list. -/
def Hunk.ifChanged : Hunk → List Hunk
  | [] => []
  | [s] => if s.same then [] else [[s]]
  | hunk => [hunk]

/-- The hunks of a list of segments, when `current` holds those of the current hunk in reverse. -/
def divide (current : List Segment) : List Segment → List Hunk
  | [] => Hunk.ifChanged current.reverse
  | s :: rest =>
    if s.same ∧ 2 * context < s.oldSize then
      (s.contextAhead :: current).reverse :: divide [s.contextBehind] rest
    else divide (s :: current) rest

/-- The hunks of a diff. -/
def hunks (segments : List Segment) : List Hunk := divide [] (trimEnd (trimStart segments))

/-- The place and size of one side of a hunk: lines are counted from one, a size of one is left
out, and an empty side names the line in front of it. -/
def rangeText (start stop : Nat) : String :=
  let n := stop - start
  if n = 1 then s!"{start + 1}" else if n = 0 then s!"{start},0" else s!"{start + 1},{n}"

/-- What is said of a last line that has no ending. -/
def noNewlineMark : String := "\n\\ No newline at end of file\n"

/-- A line of a hunk behind its mark. -/
def lineText (mark line : String) : String :=
  mark ++ line ++ if isEnded line then "" else noNewlineMark

/-- `n` lines from `start` on behind their mark. -/
def linesText (mark : String) (lines : Array String) (start n : Nat) : String :=
  String.join ((lines.extract start (start + n)).toList.map (lineText mark))

/-- The lines of a segment behind their marks. -/
def Segment.text (s : Segment) (p : Pair) : String :=
  if s.same then linesText " " p.old s.oldStart s.oldSize
  else linesText "-" p.old s.oldStart s.oldSize ++ linesText "+" p.new s.newStart s.newSize

/-- The line that opens a hunk. -/
def Hunk.header (first last : Segment) : String :=
  "@@ -" ++ rangeText first.oldStart last.oldStop ++ " +" ++
    rangeText first.newStart last.newStop ++ " @@\n"

/-- A hunk as text. -/
def Hunk.text (p : Pair) : Hunk → String
  | [] => ""
  | first :: rest =>
    Hunk.header first (rest.getLastD first) ++
      String.join ((first :: rest).map fun s => s.text p)

/-- The two lines that name the file. -/
def fileHeader (path : String) : String := "--- a/" ++ path ++ "\n+++ b/" ++ path ++ "\n"

/-- The unified diff of two texts of the file `path`. -/
def unified (path old new : String) : String :=
  let p := Pair.ofTexts old new
  match hunks p.segments with
  | [] => ""
  | hs => fileHeader path ++ String.join (hs.map (Hunk.text p))

end BlockEdit.Diff
