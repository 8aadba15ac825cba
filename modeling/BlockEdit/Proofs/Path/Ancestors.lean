import BlockEdit.Proofs.Path.NormalForm
import BlockEdit.Proofs.Path.Parents
import Mathlib.Data.List.Basic

/-!
# The parents of normalized paths

The parent of a path that spells out a root and pieces is there as soon as there is something in
front of the last piece, and it spells out all but the last one (`Spells.parent?_cons`). Where more
than one piece is left, it has the same root (`Spells.parent?_pieces`); the parent of a single piece
behind a root is always `/` (`Spells.parent?_root`).
-/

namespace BlockEdit.Path

variable {path parent : Path} {root : Root} {walked : List (List Char)} {p : List Char}

/-! ### Pieces that were walked -/

theorem UpsAndNames.isPiece (h : UpsAndNames root walked) : ∀ p ∈ walked, p ≠ [] ∧ '/' ∉ p := by
  obtain ⟨names, n, rfl, hnames, -⟩ := h
  intro p hp
  rcases List.mem_append.1 hp with hp | hp
  · exact ⟨(hnames p hp).1, (hnames p hp).2.2.2⟩
  · rw [List.eq_of_mem_replicate hp]
    decide

/-- In front of a step up there are steps up alone. -/
theorem UpsAndNames.of_cons (h : UpsAndNames root (p :: walked)) :
    UpsAndNames root walked ∧ (IsNamePiece p ∨ p = up ∧ ∀ q ∈ walked, q = up) := by
  obtain ⟨names, n, hwalked, hnames, hroot⟩ := h
  cases names with
  | cons q names =>
    rw [List.cons_append, List.cons.injEq] at hwalked
    obtain ⟨rfl, rfl⟩ := hwalked
    obtain ⟨hp, hnames⟩ := List.forall_mem_cons.1 hnames
    exact ⟨⟨names, n, rfl, hnames, hroot⟩, .inl hp⟩
  | nil =>
    obtain _ | n := n
    · simp at hwalked
    rw [List.nil_append, List.replicate_succ, List.cons.injEq] at hwalked
    obtain ⟨rfl, rfl⟩ := hwalked
    refine ⟨⟨[], n, rfl, by simp, fun h => absurd (hroot h) (Nat.succ_ne_zero n)⟩, .inr ⟨rfl, ?_⟩⟩
    exact fun q hq => List.eq_of_mem_replicate hq

/-! ### Parents -/

/-- Read from the back, a path that ends with a name is the name and then a separator. -/
theorem reverse_trimmed (front : List Char) (htext : path.text.toList = front ++ '/' :: p)
    (hne : p ≠ []) (hslash : '/' ∉ p) :
    path.trimmed.reverse = p.reverse ++ '/' :: front.reverse := by
  obtain ⟨init, c, rfl⟩ := (List.eq_nil_or_concat' p).resolve_left hne
  have hc : (c == '/') = false := by
    rw [beq_eq_false_iff_ne]
    rintro rfl
    simp at hslash
  rw [trimmed, htext, List.reverse_reverse]
  simp [hc]

theorem forall_mem_reverse_bne (hslash : '/' ∉ p) : ∀ c ∈ p.reverse, (c != '/') = true := by
  intro c hc
  rw [bne_iff_ne]
  rintro rfl
  exact hslash (List.mem_reverse.1 hc)

/-- What stands in front of the last separator is the parent. -/
theorem parent?_of_split (front : List Char) (htext : path.text.toList = front ++ '/' :: p)
    (hne : p ≠ []) (hslash : '/' ∉ p) :
    path.parent? = some ⟨if front = [] then "/" else String.ofList front⟩ := by
  have hreverse := reverse_trimmed front htext hne hslash
  have hback : (path.trimmed.reverse.dropWhile (· != '/')).drop 1 = front.reverse := by
    rw [hreverse, List.dropWhile_append_of_pos (forall_mem_reverse_bne hslash)]
    simp
  have hcontains : path.trimmed.contains '/' = true := by
    rw [← List.reverse_reverse path.trimmed, hreverse]
    simp
  unfold parent?
  simp only [hback, List.reverse_reverse]
  rw [if_pos hcontains]
  cases front with
  | nil => rfl
  | cons c cs => rfl

/-- What stands behind the last separator is the name. -/
theorem fileName?_of_split (front : List Char) (htext : path.text.toList = front ++ '/' :: p)
    (hne : p ≠ []) (hslash : '/' ∉ p) : path.fileName? = some (String.ofList p) := by
  have hback : (path.trimmed.reverse.takeWhile (· != '/')).reverse = p := by
    rw [reverse_trimmed front htext hne hslash,
      List.takeWhile_append_of_pos (forall_mem_reverse_bne hslash)]
    simp
  unfold fileName?
  rw [hback]
  cases p with
  | nil => exact absurd rfl hne
  | cons c cs => rfl

theorem Spells.parent?_nil (h : path.Spells root []) : path.parent? = none := by
  cases hparent : path.parent? with
  | none => rfl
  | some parent =>
    -- A root has separators alone, and no name.
    obtain ⟨front, name, tail, htext, hne, hslash, -⟩ := parent?_eq_some hparent
    obtain ⟨c, cs, rfl⟩ := List.exists_cons_of_ne_nil hne
    have hc : c ∈ root.chars := by
      have := h.text
      rw [htext, List.reverse_nil, joinPieces, List.append_nil] at this
      rw [← this]
      simp
    have : c = '/' := by cases root <;> simp [Root.chars] at hc <;> exact hc
    simp [this] at hslash

/-- A single piece without a root has no parent. -/
theorem Spells.parent?_relative (h : path.Spells .relative [p]) : path.parent? = none := by
  have hslash := (h.upsAndNames.isPiece p (by simp)).2
  cases hparent : path.parent? with
  | none => rfl
  | some parent =>
    obtain ⟨front, name, tail, htext, -⟩ := parent?_eq_some hparent
    have hp : front ++ '/' :: (name ++ tail) = p := htext.symm.trans h.text
    refine absurd (?_ : '/' ∈ p) hslash
    rw [← hp]
    simp

/-- The parent of a single piece behind a root is `/`. -/
theorem Spells.parent?_root (h : path.Spells root [p]) (hroot : root ≠ .relative) :
    path.parent? = some ⟨"/"⟩ ∧ path.fileName? = some (String.ofList p) := by
  obtain ⟨hne, hslash⟩ := h.upsAndNames.isPiece p (by simp)
  have hsplit : ∃ front, path.text.toList = front ++ '/' :: p ∧ (front = [] ∨ front = ['/']) := by
    have htext := h.text
    cases root with
    | relative => exact absurd rfl hroot
    | slash => exact ⟨[], htext, .inl rfl⟩
    | share => exact ⟨['/'], htext, .inr rfl⟩
  obtain ⟨front, htext, hfront⟩ := hsplit
  refine ⟨?_, fileName?_of_split front htext hne hslash⟩
  rw [parent?_of_split front htext hne hslash]
  obtain rfl | rfl := hfront <;> rfl

/-- The parent of several pieces spells out all but the last one, behind the same root. -/
theorem Spells.parent?_pieces (h : path.Spells root (p :: walked)) (hwalked : walked ≠ []) :
    ∃ parent, path.parent? = some parent ∧ parent.Spells root walked ∧
      path.fileName? = some (String.ofList p) := by
  obtain ⟨htext, hpieces⟩ := h
  obtain ⟨hne, hslash⟩ := hpieces.isPiece p (by simp)
  have hrest := hpieces.of_cons.1
  have hne' : walked.reverse ≠ [] := by simpa using hwalked
  rw [List.reverse_cons, joinPieces_concat hne', ← List.append_assoc] at htext
  refine ⟨_, parent?_of_split _ htext hne hslash, ⟨?_, hrest⟩,
    fileName?_of_split _ htext hne hslash⟩
  rw [if_neg, String.toList_ofList]
  intro hempty
  have hread := pieces_joinPieces hne' fun q hq => (hrest.isPiece q (List.mem_reverse.1 hq)).2
  rw [(List.append_eq_nil_iff.1 hempty).2] at hread
  exact (hrest.isPiece [] (by rw [← List.mem_reverse, ← hread]; simp [pieces])).1 rfl

theorem spells_slash : Spells ⟨"/"⟩ .slash [] := ⟨rfl, [], 0, rfl, by simp, fun _ => rfl⟩

/-- The parent of a path spells out all pieces but the last one. -/
theorem Spells.parent?_cons (h : path.Spells root (p :: walked)) :
    path.parent? = none ∧ walked = [] ∨
      ∃ parent root', path.parent? = some parent ∧ parent.Spells root' walked := by
  by_cases hnil : walked = []
  · subst hnil
    by_cases hroot : root = .relative
    · subst hroot
      exact .inl ⟨h.parent?_relative, rfl⟩
    · exact .inr ⟨_, .slash, (h.parent?_root hroot).1, spells_slash⟩
  · obtain ⟨parent, hparent, hspells, -⟩ := h.parent?_pieces hnil
    exact .inr ⟨parent, root, hparent, hspells⟩

/-! ### All parents -/

theorem ancestors_of_none (h : path.parent? = none) : path.ancestors = [path] := by
  rw [ancestors]
  split
  · next parent hparent => rw [h] at hparent; cases hparent
  · rfl

theorem ancestors_of_some (h : path.parent? = some parent) :
    path.ancestors = path :: parent.ancestors := by
  rw [ancestors]
  split
  · next parent' hparent => rw [← Option.some.inj (h.symm.trans hparent)]
  · next hparent => rw [h] at hparent; cases hparent

theorem mem_ancestors_self (path : Path) : path ∈ path.ancestors := by
  rw [ancestors]
  exact List.mem_cons_self

end BlockEdit.Path
