import BlockEdit.Text.Bytes

/-!
# Occurrences of one text in another

A pattern is looked for from left to right, and after a match the search goes on behind it, so
matches never overlap: in `aaaa` the pattern `aa` occurs at 0 and at 2. An empty pattern has no
matches.

* `after? pat cs` is what follows `pat` at the head of `cs` (`after?_eq_some_iff`);
* `occurrences pat text` lists the byte offsets of the matches in increasing order.
-/

namespace BlockEdit.Text

/-- What follows `pat` at the head of a text, if the text begins with `pat`. -/
def after? : List Char → List Char → Option (List Char)
  | [], cs => some cs
  | _ :: _, [] => none
  | p :: ps, c :: cs => if p = c then after? ps cs else none

@[simp] theorem after?_append (pat rest : List Char) : after? pat (pat ++ rest) = some rest := by
  induction pat with
  | nil => cases rest <;> rfl
  | cons p ps ih => simp [after?, ih]

theorem after?_eq_some {pat cs rest : List Char} (h : after? pat cs = some rest) :
    cs = pat ++ rest := by
  fun_induction after? pat cs with
  | case1 cs => simp_all
  | case2 => simp at h
  | case3 ps c cs ih => simp [ih h]
  | case4 => simp at h

theorem after?_eq_some_iff {pat cs rest : List Char} :
    after? pat cs = some rest ↔ cs = pat ++ rest :=
  ⟨after?_eq_some, fun h => h ▸ after?_append pat rest⟩

theorem after?_nil {pat : List Char} (hp : pat ≠ []) : after? pat [] = none := by
  cases pat with
  | nil => exact absurd rfl hp
  | cons p ps => rfl

/-- What is left behind a pattern that is not empty is shorter than the text. -/
theorem length_lt_of_after? {pat cs rest : List Char} (hp : pat ≠ [])
    (h : after? pat cs = some rest) : rest.length < cs.length := by
  obtain rfl := after?_eq_some h
  have : 0 < pat.length := List.length_pos_iff.2 hp
  simp; omega

/-- The offsets of the matches of `pat` in a text whose first character lies at `offset`. -/
def occurrencesFrom (pat : List Char) (hp : pat ≠ []) (offset : Nat) (cs : List Char) : List Nat :=
  match _h : after? pat cs with
  | some rest => offset :: occurrencesFrom pat hp (offset + byteSize pat) rest
  | none =>
    match cs with
    | [] => []
    | c :: cs => occurrencesFrom pat hp (offset + c.utf8Size) cs
termination_by cs.length
decreasing_by
  · exact length_lt_of_after? hp (by assumption)
  · simp

/-- The byte offsets at which `pat` occurs in `text`, without overlap, from left to right. -/
def occurrences (pat text : String) : List Nat :=
  if hp : pat.toList = [] then [] else occurrencesFrom pat.toList hp 0 text.toList

end BlockEdit.Text
