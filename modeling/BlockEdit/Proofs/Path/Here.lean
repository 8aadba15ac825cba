import BlockEdit.Proofs.Path.Ancestors

/-!
# Paths seen from the working directory

A path in normal form stays as it is when it is walked once more: its separators are all alike
(`backslash_not_mem_clean`), and the walk keeps each of its pieces (`foldl_step_reverse`). The piece
`.` in front of it leads nowhere, so the path is the same as seen from `.` (`resolveAgainst_here`).
From there the jobs of a manifest are seen whose path is a name alone: such a path has no parent
(`parent?_of_isBareName`).
-/

namespace BlockEdit.Path

/-! ### Characters of normalized paths -/

section Characters

variable {c : Char} {cs : List Char} {ps walked : List (List Char)} {piece p : List Char}
  {root : Root}

theorem mem_joinPieces (hc : c ≠ '/') : c ∈ joinPieces ps ↔ ∃ p ∈ ps, c ∈ p := by
  induction ps with
  | nil => simp [joinPieces]
  | cons p ps ih =>
    by_cases hnil : ps = []
    · simp [hnil, joinPieces]
    · simp [joinPieces_cons hnil, ih, hc]

theorem mem_of_mem_pieces (hc : c ≠ '/') (hp : p ∈ pieces cs) (h : c ∈ p) : c ∈ cs := by
  rw [← joinPieces_pieces cs]
  exact (mem_joinPieces hc).2 ⟨p, hp, h⟩

theorem mem_step (h : p ∈ step root walked piece) : p ∈ walked ∨ p = piece := by
  unfold step at h
  split at h
  · exact .inl h
  split at h
  · next hup =>
    split at h
    · split at h
      · exact .inl (List.mem_cons_of_mem _ h)
      split at h
      · exact (List.mem_cons.1 h).symm.imp_right (·.trans hup.symm)
      · exact .inl h
    · split at h
      · exact .inr ((List.mem_singleton.1 h).trans hup.symm)
      · cases h
  · exact (List.mem_cons.1 h).symm

/-- What is left of some pieces are pieces that were there. -/
theorem mem_foldl_step (h : p ∈ ps.foldl (step root) walked) : p ∈ walked ∨ p ∈ ps := by
  induction ps generalizing walked with
  | nil => exact .inl h
  | cons q ps ih =>
    obtain h | h := ih h
    · refine (mem_step h).imp_right ?_
      rintro rfl
      exact List.mem_cons_self
    · exact .inr (List.mem_cons_of_mem _ h)

theorem backslash_not_mem_clean (h : '\\' ∉ cs) : '\\' ∉ clean cs := by
  intro hmem
  unfold clean at hmem
  simp only at hmem
  split at hmem
  · exact absurd hmem (by decide)
  · rw [List.mem_append, mem_joinPieces (by decide)] at hmem
    obtain hmem | ⟨p, hp, hmem⟩ := hmem
    · cases hroot : rootOf cs <;> rw [hroot] at hmem <;> exact absurd hmem (by decide)
    · obtain hp | hp := mem_foldl_step (List.mem_reverse.1 hp)
      · cases hp
      · exact h (mem_of_mem_pieces (by decide) hp hmem)

theorem unifySeparators_of_not_mem (h : '\\' ∉ cs) : unifySeparators cs = cs := by
  have hkept : ∀ c ∈ cs, (if c = '\\' then '/' else c) = c := fun c hc =>
    if_neg (by rintro rfl; exact h hc)
  rw [unifySeparators, List.map_congr_left hkept, List.map_id']

theorem backslash_not_mem_unifySeparators (cs : List Char) : '\\' ∉ unifySeparators cs := by
  intro h
  obtain ⟨c, -, hc⟩ := List.mem_map.1 h
  split at hc
  · cases hc
  · next hne => exact hne hc

end Characters

/-! ### Walking a normalized path once more -/

section Walk

variable {path : Path} {root : Root} {walked : List (List Char)} {p : List Char}

/-- The last piece that was walked is kept when it is walked again. -/
theorem UpsAndNames.step_of_cons (h : UpsAndNames root (p :: walked)) :
    step root walked p = p :: walked := by
  obtain ⟨names, n, hwalked, hnames, hroot⟩ := h
  cases names with
  | cons q names =>
    rw [List.cons_append, List.cons.injEq] at hwalked
    obtain ⟨rfl, -⟩ := hwalked
    exact step_name (hnames p List.mem_cons_self)
  | nil =>
    obtain _ | n := n
    · simp at hwalked
    rw [List.nil_append, List.replicate_succ, List.cons.injEq] at hwalked
    obtain ⟨rfl, rfl⟩ := hwalked
    have hrelative : root = .relative := by
      by_contra hne
      exact Nat.succ_ne_zero n (hroot hne)
    subst hrelative
    cases n <;> rfl

theorem foldl_step_reverse (h : UpsAndNames root walked) :
    walked.reverse.foldl (step root) [] = walked := by
  induction walked with
  | nil => rfl
  | cons p walked ih =>
    rw [List.reverse_cons, List.foldl_append, ih h.of_cons.1]
    exact h.step_of_cons

/-- A path in normal form that is not absolute is walked again behind `.` without a change. -/
theorem clean_here_slash (s : String) (hs : s ≠ "") (h : (ofString s).isAbsolute = false) :
    clean ('.' :: '/' :: (ofString s).text.toList) = (ofString s).text.toList := by
  have hne := toList_ofString_ne_nil hs
  obtain ⟨root, walked, htext, hwalked⟩ | hhere := spells_ofString s
  · have hrelative : root = .relative := by
      cases root with
      | relative => rfl
      | slash => simp [isAbsolute, htext, Root.chars] at h
      | share => simp [isAbsolute, htext, Root.chars] at h
    subst hrelative
    rw [Root.chars, List.nil_append] at htext
    have hnil : walked.reverse ≠ [] := fun hnil => hne (by rw [htext, hnil]; rfl)
    have hpieces : pieces ('.' :: '/' :: (ofString s).text.toList) = here :: walked.reverse := by
      rw [htext, ← List.singleton_append, pieces_append,
        pieces_joinPieces hnil fun p hp => (hwalked.isPiece p (List.mem_reverse.1 hp)).2]
      rfl
    have hwalk : walk .relative (here :: walked.reverse) = walked.reverse := by
      rw [walk, List.foldl_cons, step_stay (.inr rfl), foldl_step_reverse hwalked]
    have hroot : rootOf ('.' :: '/' :: (ofString s).text.toList) = .relative := rfl
    rw [clean, hroot, hpieces, hwalk, ← htext]
    simp [Root.chars, hne]
  · rw [hhere]
    decide

/-- Seen from `.`, a path that is not empty is the same. -/
theorem resolveAgainst_here {s : String} (hs : s ≠ "") :
    (ofString s).resolveAgainst (ofString ".") = ofString s := by
  have hplain : '\\' ∉ (ofString s).text.toList := by
    rw [ofString, String.toList_ofList]
    exact backslash_not_mem_clean (backslash_not_mem_unifySeparators s.toList)
  unfold resolveAgainst
  split
  · rfl
  · next hrelative =>
    have hbase : (ofString ".").text = "." := by decide
    have hjoined : ("." ++ "/" ++ (ofString s).text).toList =
        '.' :: '/' :: (ofString s).text.toList := by simp
    rw [join, if_neg (toList_ofString_ne_nil hs), hbase, if_neg (by decide), if_neg (by decide)]
    conv_lhs => rw [ofString, hjoined]
    rw [unifySeparators_of_not_mem (by simp [hplain]),
      clean_here_slash s hs ((Bool.not_eq_true _).mp hrelative), String.ofList_toList]

end Walk

/-! ### Names alone -/

/-- The name of something in the working directory: it has no separators, of which a backslash is
one. -/
def IsBareName (name : String) : Prop := '/' ∉ name.toList ∧ '\\' ∉ name.toList

instance (name : String) : Decidable (IsBareName name) := inferInstanceAs (Decidable (_ ∧ _))

theorem slash_not_mem_clean {cs : List Char} (h : '/' ∉ cs) : '/' ∉ clean cs := by
  have hroot : rootOf cs = .relative := by
    unfold rootOf
    split <;> simp_all
  have hwalk : '/' ∉ joinPieces (walk .relative [cs]) := by
    rw [walk, List.foldl_cons, List.foldl_nil, step]
    split
    · decide
    split
    · decide
    · exact h
  rw [clean, hroot, pieces_eq_singleton h]
  split
  · decide
  · exact hwalk

theorem parent?_of_isBareName {name : String} (h : IsBareName name) :
    (ofString name).parent? = none := by
  obtain ⟨hslash, hback⟩ := h
  have hname : '/' ∉ (ofString name).text.toList := by
    rw [ofString, String.toList_ofList, unifySeparators_of_not_mem hback]
    exact slash_not_mem_clean hslash
  cases hparent : (ofString name).parent? with
  | none => rfl
  | some parent =>
    obtain ⟨front, last, tail, htext, -⟩ := parent?_eq_some hparent
    exact absurd (by simp [htext]) hname

end BlockEdit.Path
