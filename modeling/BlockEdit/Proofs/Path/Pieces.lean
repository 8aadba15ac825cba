import BlockEdit.Path.Pieces
import Mathlib.Tactic.Common

/-!
# Cutting and joining paths

Cutting at separators and joining with separators undo each other: `joinPieces_pieces`, which stands
beside the definitions, and `pieces_joinPieces`. A path that is cut in two at a separator has the
pieces of both parts (`pieces_append`).

`named` are the pieces that are not empty, which is all that a walk along a path looks at.
-/

namespace BlockEdit.Path

/-- The pieces of a path that are not empty. -/
def named (cs : List Char) : List (List Char) := (pieces cs).filter (· ≠ [])

theorem pieces_cons {c : Char} (hc : c ≠ '/') (cs : List Char) :
    ∃ p ps, pieces cs = p :: ps ∧ pieces (c :: cs) = (c :: p) :: ps := by
  obtain ⟨p, ps, hp⟩ := List.exists_cons_of_ne_nil (pieces_ne_nil cs)
  refine ⟨p, ps, hp, ?_⟩
  rw [pieces.eq_3 _ _ hc, hp]

@[simp] theorem pieces_slash (cs : List Char) : pieces ('/' :: cs) = [] :: pieces cs := rfl

/-- A path that is cut in two at a separator. -/
theorem pieces_append (a b : List Char) : pieces (a ++ '/' :: b) = pieces a ++ pieces b := by
  induction a with
  | nil => rfl
  | cons c cs ih =>
    by_cases hc : c = '/'
    · subst hc
      rw [List.cons_append, pieces_slash, pieces_slash, ih, List.cons_append]
    · obtain ⟨p, ps, hcs, hccs⟩ := pieces_cons hc cs
      obtain ⟨q, qs, hq, hcq⟩ := pieces_cons hc (cs ++ '/' :: b)
      rw [ih, hcs, List.cons_append, List.cons.injEq] at hq
      obtain ⟨rfl, rfl⟩ := hq
      rw [List.cons_append, hcq, hccs, List.cons_append]

theorem pieces_eq_singleton {p : List Char} (hp : '/' ∉ p) : pieces p = [p] := by
  induction p with
  | nil => rfl
  | cons c cs ih =>
    obtain ⟨hc, hcs⟩ : '/' ≠ c ∧ '/' ∉ cs := by simpa using hp
    obtain ⟨q, qs, hq, hcq⟩ := pieces_cons hc.symm cs
    rw [ih hcs, List.cons.injEq] at hq
    rw [hcq, ← hq.1, ← hq.2]

/-- No piece holds a separator. -/
theorem slash_not_mem_of_mem_pieces {p cs : List Char} (hp : p ∈ pieces cs) : '/' ∉ p := by
  induction cs generalizing p with
  | nil => simp_all [pieces]
  | cons c cs ih =>
    by_cases hc : c = '/'
    · subst hc
      rcases List.mem_cons.1 hp with rfl | hp
      · simp
      · exact ih hp
    · obtain ⟨q, qs, hq, hcq⟩ := pieces_cons hc cs
      rw [hcq] at hp
      rcases List.mem_cons.1 hp with rfl | hp
      · have := ih (p := q) (by simp [hq])
        simp_all [eq_comm]
      · exact ih (by simp [hq, hp])

theorem joinPieces_cons {p : List Char} {ps : List (List Char)} (hps : ps ≠ []) :
    joinPieces (p :: ps) = p ++ '/' :: joinPieces ps := by
  cases ps with
  | nil => exact absurd rfl hps
  | cons q qs => rfl

theorem joinPieces_concat {ps : List (List Char)} (hps : ps ≠ []) (p : List Char) :
    joinPieces (ps ++ [p]) = joinPieces ps ++ '/' :: p := by
  induction ps with
  | nil => exact absurd rfl hps
  | cons q qs ih =>
    by_cases hqs : qs = []
    · subst hqs; rfl
    · rw [List.cons_append, joinPieces_cons (by simp), ih hqs, joinPieces_cons hqs,
        List.append_assoc, List.cons_append]

theorem pieces_joinPieces {ps : List (List Char)} (hps : ps ≠ []) (h : ∀ p ∈ ps, '/' ∉ p) :
    pieces (joinPieces ps) = ps := by
  induction ps with
  | nil => exact absurd rfl hps
  | cons p ps ih =>
    obtain ⟨hp, htail⟩ := List.forall_mem_cons.1 h
    by_cases hnil : ps = []
    · subst hnil
      exact pieces_eq_singleton hp
    · rw [joinPieces_cons hnil, pieces_append, pieces_eq_singleton hp, ih hnil htail,
        List.singleton_append]

/-- Where pieces are joined, there is a piece on both sides of each separator. -/
theorem joinPieces_eq_append {ps : List (List Char)} {front rest : List Char}
    (h : ∀ p ∈ ps, p ≠ [] ∧ '/' ∉ p) (heq : joinPieces ps = front ++ '/' :: rest) :
    [] ∉ pieces front ∧ [] ∉ pieces rest := by
  have hnil : ps ≠ [] := by
    rintro rfl
    simp [joinPieces] at heq
  have hpieces := pieces_joinPieces hnil fun p hp => (h p hp).2
  rw [heq, pieces_append] at hpieces
  have hne : [] ∉ ps := fun hmem => (h [] hmem).1 rfl
  rw [← hpieces, List.mem_append, not_or] at hne
  exact hne

theorem head?_joinPieces {ps : List (List Char)} (h : ∀ p ∈ ps, p ≠ [] ∧ '/' ∉ p) :
    (joinPieces ps).head? ≠ some '/' := by
  intro hhead
  obtain ⟨rest, hrest⟩ := List.head?_eq_some_iff.1 hhead
  have hempty : joinPieces ps = [] ++ '/' :: rest := hrest
  exact (joinPieces_eq_append h hempty).1 (by simp [pieces])

@[simp] theorem named_nil : named [] = [] := rfl

@[simp] theorem named_slash (cs : List Char) : named ('/' :: cs) = named cs := by
  simp [named]

theorem named_append (a b : List Char) : named (a ++ '/' :: b) = named a ++ named b := by
  rw [named, pieces_append, List.filter_append, named, named]

theorem named_eq_singleton {p : List Char} (hne : p ≠ []) (hp : '/' ∉ p) : named p = [p] := by
  simp [named, pieces_eq_singleton hp, hne]

theorem named_joinPieces {ps : List (List Char)} (h : ∀ p ∈ ps, p ≠ [] ∧ '/' ∉ p) :
    named (joinPieces ps) = ps := by
  by_cases hnil : ps = []
  · subst hnil; rfl
  · rw [named, pieces_joinPieces hnil fun p hp => (h p hp).2, List.filter_eq_self]
    intro p hp
    simpa using (h p hp).1

end BlockEdit.Path
