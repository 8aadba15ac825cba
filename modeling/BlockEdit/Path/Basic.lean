import BlockEdit.Path.Pieces
import BlockEdit.Text.Utf8

/-!
# Normalized paths

Manifests are written on one system and applied on another, so a path is kept in one form: its
separators are `/` (a backslash counts as one), no piece is empty or `.`, and `..` is folded into
the piece in front of it. What a path starts from is its root: nothing, `/`, or exactly two
separators, which name a network share.

* `ofString` reads any text as a path; `ofBytes?` and `ofBytesLossy` read bytes;
* `join` and `resolveAgainst` put paths together;
* `parent?`, `fileName?` and `extension?` take a path apart.

A `..` with nothing in front of it is dropped at a root and kept in a relative path. The empty
text stays empty, and any other path without pieces is `.` or its root.
-/

namespace BlockEdit

/-- A path in normalized form. -/
structure Path where
  text : String
  deriving DecidableEq, Repr

namespace Path

/-- What a path starts from. -/
inductive Root where
  | relative
  | slash
  | share
  deriving DecidableEq, Repr

/-- A root as it is written. -/
def Root.chars : Root → List Char
  | .relative => []
  | .slash => ['/']
  | .share => ['/', '/']

/-- The root of a path: two separators and no third one start from a share. -/
def rootOf : List Char → Root
  | '/' :: '/' :: '/' :: _ => .slash
  | '/' :: '/' :: _ => .share
  | '/' :: _ => .slash
  | _ => .relative

/-- The piece that stands for the directory itself. -/
def here : List Char := ['.']

/-- The piece that leads one level up. -/
def up : List Char := ['.', '.']

/-- The pieces walked so far, last one first, after one more piece. -/
def step (root : Root) (walked : List (List Char)) (piece : List Char) : List (List Char) :=
  if piece = [] ∨ piece = here then walked
  else if piece = up then
    match walked with
    | last :: rest =>
      if last ≠ up then rest else if root = .relative then up :: walked else walked
    | [] => if root = .relative then [up] else []
  else piece :: walked

/-- The pieces that are left of a path. -/
def walk (root : Root) (ps : List (List Char)) : List (List Char) :=
  (ps.foldl (step root) []).reverse

/-- The separators of a path, all written alike. -/
def unifySeparators (cs : List Char) : List Char := cs.map fun c => if c = '\\' then '/' else c

/-- The normalized form of a path whose separators are all `/`. -/
def clean (cs : List Char) : List Char :=
  let root := rootOf cs
  let cleaned := root.chars ++ joinPieces (walk root (pieces cs))
  if cleaned = [] ∧ cs ≠ [] then here else cleaned

/-- The path that a text denotes. -/
def ofString (s : String) : Path := ⟨String.ofList (clean (unifySeparators s.toList))⟩

/-- The path that a list of bytes denotes, with U+FFFD in the place of what is not text. -/
def ofBytesLossy (bytes : ByteArray) : Path := ofString (Text.ofBytesLossy bytes)

/-- The path that a list of bytes denotes, if they are text. -/
def ofBytes? (bytes : ByteArray) : Option Path := (String.fromUTF8? bytes).map ofString

/-- The path of `segment` below `base`. -/
def join (base : Path) (segment : String) : Path :=
  if segment.toList = [] then base
  else if base.text.toList = [] then ofString segment
  else if base.text.toList.getLast? = some '/' then ofString (base.text ++ segment)
  else ofString (base.text ++ "/" ++ segment)

/-- The path starts from a root or from a drive letter. -/
def isAbsolute (path : Path) : Bool :=
  match path.text.toList with
  | '/' :: _ => true
  | drive :: ':' :: '/' :: _ => drive.isAlpha
  | _ => false

/-- The path as seen from `base`, unless it is absolute. -/
def resolveAgainst (path base : Path) : Path :=
  if path.isAbsolute then path else base.join path.text

/-- A path without the separators at its end. -/
def trimmed (path : Path) : List Char :=
  (path.text.toList.reverse.dropWhile (· == '/')).reverse

/-- The directory of a path that has one: what stands in front of the last separator. -/
def parent? (path : Path) : Option Path :=
  let cs := path.trimmed
  if cs.contains '/' then
    match (cs.reverse.dropWhile (· != '/')).drop 1 |>.reverse with
    | [] => some ⟨"/"⟩
    | front => some ⟨String.ofList front⟩
  else none

/-- The directory of a path has a shorter path. -/
theorem length_parent?_lt {path parent : Path} (h : path.parent? = some parent) :
    parent.text.length < path.text.length := by
  unfold parent? trimmed at h
  simp only [List.reverse_reverse] at h
  have hback := (List.dropWhile_sublist (l := path.text.toList.reverse) (· == '/')).length_le
  have hhead := List.head?_dropWhile_not (· == '/') path.text.toList.reverse
  generalize path.text.toList.reverse.dropWhile (· == '/') = back at *
  simp only [List.length_reverse, String.length_toList] at hback
  cases back with
  | nil => simp at h
  | cons c cs =>
    have hc : (c != '/') = true := by simpa using hhead
    have hd := (List.dropWhile_sublist (l := cs) (· != '/')).length_le
    rw [List.dropWhile_cons, if_pos hc] at h
    simp only [List.length_cons] at hback
    split at h
    · next hslash =>
      split at h
      · obtain rfl := Option.some.inj h
        cases cs with
        | nil => exact absurd (by simpa [eq_comm] using hslash) (by simpa using hc)
        | cons d ds =>
          simp only [List.length_cons] at hback
          exact Nat.lt_of_lt_of_le (by decide : "/".length < 2) (by omega)
      · obtain rfl := Option.some.inj h
        simp only [String.length_ofList, List.length_reverse, List.length_drop]
        omega
    · simp at h

/-- A path and its parents, the nearest first. -/
def ancestors (path : Path) : List Path :=
  path ::
    match _h : path.parent? with
    | some parent => parent.ancestors
    | none => []
termination_by path.text.length
decreasing_by exact length_parent?_lt (by assumption)

/-- The last piece of a path, if it has any. -/
def fileName? (path : Path) : Option String :=
  match (path.trimmed.reverse.takeWhile (· != '/')).reverse with
  | [] => none
  | name => some (String.ofList name)

/-- What follows the last dot of the file name, unless the name begins with that dot. -/
def extension? (path : Path) : Option String :=
  match path.fileName? with
  | none => none
  | some name =>
    let back := name.toList.reverse
    match back.dropWhile (· != '.') with
    | _ :: _ :: _ => some (String.ofList (back.takeWhile (· != '.')).reverse)
    | _ => none

end Path

end BlockEdit
