/-!
# Pieces of a path

A path is cut at its separators. The pieces between them may be empty, and joining the pieces with
separators gives the path back (`joinPieces_pieces`).
-/

namespace BlockEdit.Path

/-- The pieces of a path between its separators. -/
def pieces : List Char → List (List Char)
  | [] => [[]]
  | '/' :: cs => [] :: pieces cs
  | c :: cs =>
    match pieces cs with
    | [] => [[c]]
    | p :: ps => (c :: p) :: ps

/-- Pieces with a separator between each two. -/
def joinPieces : List (List Char) → List Char
  | [] => []
  | [p] => p
  | p :: ps => p ++ '/' :: joinPieces ps

theorem pieces_ne_nil (cs : List Char) : pieces cs ≠ [] := by
  fun_cases pieces cs <;> simp_all

theorem joinPieces_pieces (cs : List Char) : joinPieces (pieces cs) = cs := by
  fun_induction pieces cs with
  | case1 => rfl
  | case2 cs ih =>
    have h := pieces_ne_nil cs
    cases hp : pieces cs with
    | nil => exact absurd hp h
    | cons p ps =>
      rw [hp] at ih
      simp [joinPieces, ih]
  | case3 c cs _ hp ih => exact absurd hp (pieces_ne_nil cs)
  | case4 c cs _ p ps hp ih =>
    rw [hp] at ih
    cases ps with
    | nil => simp_all [joinPieces]
    | cons q qs => simp_all [joinPieces]

end BlockEdit.Path
