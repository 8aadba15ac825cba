import BlockEdit.Path.Basic
import Mathlib.Data.List.TakeWhile
import Mathlib.Tactic.Common

/-!
# Taking a path apart

`Path.parent?` cuts a path behind its directory: `parent?_eq_some` says what stands on both sides of
the cut.
-/

namespace BlockEdit.Path

/-- The front of a list, from the back, up to where a predicate first fails. -/
theorem exists_eq_append_of_reverse_dropWhile (p : Char → Bool) (cs : List Char) :
    ∃ tail, cs = (cs.reverse.dropWhile p).reverse ++ tail ∧ ∀ c ∈ tail, p c := by
  refine ⟨(cs.reverse.takeWhile p).reverse, ?_, fun c hc => ?_⟩
  · rw [← List.reverse_append, List.takeWhile_append_dropWhile, List.reverse_reverse]
  · exact List.mem_takeWhile_imp (List.mem_reverse.1 hc)

/-- A path that has a parent is the parent's text, a separator, and a name, which further separators
may follow. -/
theorem parent?_eq_some {path parent : Path} (h : path.parent? = some parent) :
    ∃ front name tail, path.text.toList = front ++ '/' :: (name ++ tail) ∧ name ≠ [] ∧
      '/' ∉ name ∧ (∀ c ∈ tail, c = '/') ∧
      parent.text.toList = if front = [] then ['/'] else front := by
  obtain ⟨tail, htext, htail⟩ :=
    exists_eq_append_of_reverse_dropWhile (· == '/') path.text.toList
  change path.text.toList = path.trimmed ++ tail at htext
  obtain ⟨name, htrimmed, hname⟩ :=
    exists_eq_append_of_reverse_dropWhile (· != '/') path.trimmed
  unfold parent? at h
  simp only at h
  split at h
  · next hslash =>
    -- What is left from the back, up to the last separator, begins with that separator.
    obtain ⟨rest, hrest⟩ : ∃ rest, path.trimmed.reverse.dropWhile (· != '/') = '/' :: rest := by
      cases hback : path.trimmed.reverse.dropWhile (· != '/') with
      | nil =>
        have := List.dropWhile_eq_nil_iff.1 hback '/' (by simpa using hslash)
        simp at this
      | cons c rest =>
        have hc := List.head?_dropWhile_not (· != '/') path.trimmed.reverse
        simp only [hback, List.head?_cons, bne_eq_false_iff_eq] at hc
        exact ⟨rest, by rw [hc]⟩
    rw [hrest] at htrimmed h
    rw [List.reverse_cons, List.append_assoc, List.singleton_append] at htrimmed
    rw [List.drop_succ_cons, List.drop_zero] at h
    refine ⟨rest.reverse, name, tail, by rw [htext, htrimmed]; simp, ?_, ?_, ?_, ?_⟩
    · rintro rfl
      have hlast := List.head?_dropWhile_not (· == '/') path.text.toList.reverse
      rw [show path.text.toList.reverse.dropWhile (· == '/') = '/' :: rest by
        rw [← List.reverse_reverse (List.dropWhile _ _), ← trimmed, htrimmed]; simp] at hlast
      simp at hlast
    · intro hmem
      simpa using hname '/' hmem
    · intro c hc
      simpa using htail c hc
    · split at h
      · next hnil =>
        rw [← Option.some.inj h, if_pos hnil]
        rfl
      · next hne =>
        rw [← Option.some.inj h, if_neg hne, String.toList_ofList]
  · cases h

end BlockEdit.Path
