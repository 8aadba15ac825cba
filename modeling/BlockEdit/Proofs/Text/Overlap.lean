import BlockEdit.Proofs.Text.Matches
import Mathlib.Data.List.Infix

/-!
# Occurrences that overlap

A search from left to right goes on behind what it has found. What it misses in this way begins
inside a match, so whether it misses anything depends on how the patterns overlap.

* `OccursAt pat n cs`: the text goes on with the pattern at the offset `n`;
* `Overlaps a b`: some text ends with a part of `a` and goes on to be `b`;
* `Separate a b`: no occurrence of one text shares a character with an occurrence of the other.

A search for one of two separate texts passes over the other one
(`occurrencesFrom_append_of_separate`).
-/

namespace BlockEdit.Text

/-- The text goes on with `pat` at the offset `n`. -/
def OccursAt (pat : List Char) (n : Nat) (cs : List Char) : Prop :=
  ∃ front rest, cs = front ++ (pat ++ rest) ∧ byteSize front = n

/-- A proper suffix of `a` that is not empty is a prefix of `b`. -/
def Overlaps (a b : List Char) : Prop := ∃ x y, a = x ++ y ∧ x ≠ [] ∧ y ≠ [] ∧ y <+: b

/-- Neither text is a part of the other, and neither overlaps the other. Each may overlap itself. -/
structure Separate (a b : List Char) : Prop where
  not_within : ¬a <:+: b
  not_within_of : ¬b <:+: a
  not_overlaps : ¬Overlaps a b
  not_overlaps_of : ¬Overlaps b a

theorem overlaps_iff {a b : List Char} : Overlaps a b ↔ ∃ y ∈ a.tail.tails, y ≠ [] ∧ y <+: b := by
  constructor
  · rintro ⟨x, y, rfl, hx, hy, hpre⟩
    obtain ⟨c, x, rfl⟩ := List.exists_cons_of_ne_nil hx
    exact ⟨y, (List.mem_tails _ _).2 (List.suffix_append x y), hy, hpre⟩
  · rintro ⟨y, hmem, hy, hpre⟩
    cases a with
    | nil => exact absurd (List.suffix_nil.1 ((List.mem_tails _ _).1 hmem)) hy
    | cons c cs =>
      obtain ⟨x, rfl⟩ := (List.mem_tails _ _).1 hmem
      exact ⟨c :: x, y, rfl, by simp, hy, hpre⟩

instance (a b : List Char) : Decidable (Overlaps a b) := decidable_of_iff _ overlaps_iff.symm

theorem Separate.symm {a b : List Char} (h : Separate a b) : Separate b a :=
  ⟨h.not_within_of, h.not_within, h.not_overlaps_of, h.not_overlaps⟩

section Search

variable {pat a x y rest : List Char} {hp : pat ≠ []} {offset : Nat}

/-- A pattern does not begin inside a text that it is separate from. -/
theorem Separate.after?_eq_none (h : Separate pat a) (hsplit : a = x ++ y) (hy : y ≠ [])
    (rest : List Char) : after? pat (y ++ rest) = none := by
  rw [Option.eq_none_iff_forall_ne_some]
  intro tail htail
  have hpat : pat <+: y ++ rest := ⟨tail, (after?_eq_some htail).symm⟩
  rcases List.prefix_or_prefix_of_prefix hpat (List.prefix_append y rest) with hinside | hacross
  · exact h.not_within (hinside.isInfix.trans ⟨x, [], by simp [hsplit]⟩)
  · by_cases hx : x = []
    · subst hx
      exact h.not_within_of (hsplit ▸ hacross.isInfix)
    · exact h.not_overlaps_of ⟨x, y, hsplit, hx, hy, hacross⟩

/-- A search passes over a text that the pattern is separate from. -/
theorem occurrencesFrom_append_of_separate (h : Separate pat a) (rest : List Char) :
    occurrencesFrom pat hp offset (a ++ rest) =
      occurrencesFrom pat hp (offset + byteSize a) rest := by
  -- The induction is on what is left of the text, of which `x` has been passed over.
  suffices hsuffix : ∀ y x offset, a = x ++ y → occurrencesFrom pat hp offset (y ++ rest) =
      occurrencesFrom pat hp (offset + byteSize y) rest from hsuffix a [] offset rfl
  intro y
  induction y with
  | nil => simp
  | cons c y ih =>
    intro x offset hsplit
    have hno := h.after?_eq_none hsplit (by simp) rest
    rw [List.cons_append] at hno ⊢
    rw [occurrencesFrom_cons hno, ih (x ++ [c]) _ (by simp [hsplit]), byteSize_cons,
      Nat.add_assoc]

end Search

end BlockEdit.Text
