import BlockEdit.Path.Basic
import BlockEdit.Proofs.Path.Pieces

/-!
# The form of normalized paths

The pieces that are left of a path are steps up, none of them behind a root, and then names. A
normalized path is `.`, or it spells out a root, or nothing, and then such pieces
(`spells_ofString`). One that is absolute is a root or nothing, and then names with separators
between them (`exists_isPlain_ofString`). The same holds of a path that is resolved
against a root (`exists_isPlain_resolveAgainst`).
-/

namespace BlockEdit.Path

/-- A piece that leads to something inside a directory. -/
def IsNamePiece (p : List Char) : Prop := p ≠ [] ∧ p ≠ here ∧ p ≠ up ∧ '/' ∉ p

/-- Names, last one first, and behind them steps up, of which there are none behind a root. -/
def UpsAndNames (root : Root) (walked : List (List Char)) : Prop :=
  ∃ names n, walked = names ++ List.replicate n up ∧ (∀ p ∈ names, IsNamePiece p) ∧
    (root ≠ .relative → n = 0)

section Walk

variable {root : Root} {walked : List (List Char)} {piece : List Char}

theorem step_stay (h : piece = [] ∨ piece = here) : step root walked piece = walked := if_pos h

theorem step_name (h : IsNamePiece piece) : step root walked piece = piece :: walked := by
  obtain ⟨hne, hhere, hup, -⟩ := h
  unfold step
  rw [if_neg (by simp [hne, hhere]), if_neg hup]

/-- A step up takes the last name away. -/
theorem step_up_name {last : List Char} (h : last ≠ up) :
    step root (last :: walked) up = walked := by
  show (if last ≠ up then walked else if root = .relative then up :: last :: walked
    else last :: walked) = walked
  rw [if_pos h]

/-- Where there is no name to take away, a step up is kept, but not at a root. -/
theorem step_up_ups {n : Nat} (h : root ≠ .relative → n = 0) :
    ∃ m, step root (List.replicate n up) up = List.replicate m up ∧
      (root ≠ .relative → m = 0) := by
  by_cases hrelative : root = .relative
  · refine ⟨n + 1, ?_, fun h => absurd hrelative h⟩
    subst hrelative
    cases n <;> rfl
  · obtain rfl := h hrelative
    refine ⟨0, ?_, fun _ => rfl⟩
    show (if root = .relative then [up] else []) = []
    rw [if_neg hrelative]

theorem upsAndNames_step (hpiece : '/' ∉ piece) (h : UpsAndNames root walked) :
    UpsAndNames root (step root walked piece) := by
  by_cases hstay : piece = [] ∨ piece = here
  · rwa [step_stay hstay]
  obtain ⟨names, n, rfl, hnames, hroot⟩ := h
  by_cases hup : piece = up
  · subst hup
    cases names with
    | cons last names =>
      obtain ⟨hlast, hnames⟩ := List.forall_mem_cons.1 hnames
      rw [List.cons_append, step_up_name hlast.2.2.1]
      exact ⟨names, n, rfl, hnames, hroot⟩
    | nil =>
      obtain ⟨m, hstep, hm⟩ := step_up_ups hroot
      exact ⟨[], m, hstep, by simp, hm⟩
  · have hname : IsNamePiece piece :=
      ⟨fun h => hstay (.inl h), fun h => hstay (.inr h), hup, hpiece⟩
    rw [step_name hname]
    exact ⟨piece :: names, n, rfl, List.forall_mem_cons.2 ⟨hname, hnames⟩, hroot⟩

theorem upsAndNames_foldl (ps : List (List Char)) (hps : ∀ p ∈ ps, '/' ∉ p)
    (h : UpsAndNames root walked) : UpsAndNames root (ps.foldl (step root) walked) := by
  induction ps generalizing walked with
  | nil => exact h
  | cons p ps ih =>
    obtain ⟨hp, hps⟩ := List.forall_mem_cons.1 hps
    exact ih hps (upsAndNames_step hp h)

end Walk

/-- The path is a root, or nothing, and then the pieces that were walked, last one first. -/
structure Spells (path : Path) (root : Root) (walked : List (List Char)) : Prop where
  text : path.text.toList = root.chars ++ joinPieces walked.reverse
  upsAndNames : UpsAndNames root walked

/-- A path in normal form spells out its root and its pieces, unless it is `.`. -/
theorem spells_ofString (s : String) :
    (∃ root walked, (ofString s).Spells root walked) ∨ (ofString s).text.toList = here := by
  obtain ⟨cs, hcs⟩ : ∃ cs, (ofString s).text.toList = clean cs :=
    ⟨_, by rw [ofString, String.toList_ofList]⟩
  rw [hcs, clean]
  split
  · exact .inr rfl
  · refine .inl ⟨rootOf cs, (pieces cs).foldl (step (rootOf cs)) [], ?_, ?_⟩
    · rw [hcs, clean, if_neg (by assumption), walk]
    · exact upsAndNames_foldl _ (fun _ => slash_not_mem_of_mem_pieces)
        ⟨[], 0, rfl, by simp, fun _ => rfl⟩

/-- The path is a root, or nothing, and then names. -/
def IsPlain (path : Path) (root : Root) (names : List (List Char)) : Prop :=
  path.text.toList = root.chars ++ joinPieces names ∧ ∀ p ∈ names, IsNamePiece p

theorem head?_joinPieces_ne_slash {names : List (List Char)} (h : ∀ p ∈ names, IsNamePiece p) :
    (joinPieces names).head? ≠ some '/' :=
  head?_joinPieces fun p hp => ⟨(h p hp).1, (h p hp).2.2.2⟩

/-- A path in normal form that is absolute has no steps up. -/
theorem exists_isPlain_ofString (s : String) (h : (ofString s).isAbsolute) :
    ∃ root names, (ofString s).IsPlain root names := by
  obtain ⟨root, walked, htext, names, n, rfl, hnames, hroot⟩ | hhere := spells_ofString s
  · refine ⟨root, names.reverse, ?_, by simpa using hnames⟩
    rw [List.reverse_append, List.reverse_replicate] at htext
    suffices n = 0 by rw [htext, this]; rfl
    by_contra hn
    have hrelative : root = .relative := by
      by_contra hne
      exact hn (hroot hne)
    obtain ⟨m, rfl⟩ := Nat.exists_eq_succ_of_ne_zero hn
    obtain ⟨rest, hrest⟩ : ∃ rest, (ofString s).text.toList = '.' :: '.' :: rest := by
      rw [htext, hrelative, List.replicate_succ, List.cons_append]
      by_cases hnil : List.replicate m up ++ names.reverse = []
      · exact ⟨[], by rw [hnil]; rfl⟩
      · exact ⟨_, by rw [joinPieces_cons hnil]; rfl⟩
    simp [isAbsolute, hrest] at h
  · simp [isAbsolute, hhere, here] at h

/-! ### Resolving a path against a root -/

/-- The path starts with a separator. -/
def IsRooted (path : Path) : Prop := path.text.toList.head? = some '/'

instance (path : Path) : Decidable path.IsRooted := inferInstanceAs (Decidable (_ = _))

theorem isRooted_iff {path : Path} {root : Root} {names : List (List Char)}
    (h : path.IsPlain root names) : path.IsRooted ↔ root ≠ .relative := by
  obtain ⟨htext, hnames⟩ := h
  rw [IsRooted, htext]
  cases root with
  | relative => simpa [Root.chars] using head?_joinPieces_ne_slash hnames
  | slash => simp [Root.chars]
  | share => simp [Root.chars]

theorem rootOf_slash (cs : List Char) : rootOf ('/' :: cs) ≠ .relative := by
  unfold rootOf
  split <;> simp_all

/-- A path that starts with a separator does so in normal form. -/
theorem head?_clean_slash (cs : List Char) : (clean ('/' :: cs)).head? = some '/' := by
  have h := rootOf_slash cs
  unfold clean
  generalize rootOf ('/' :: cs) = root at h ⊢
  cases root with
  | relative => exact absurd rfl h
  | slash => rfl
  | share => rfl

theorem clean_ne_nil {cs : List Char} (h : cs ≠ []) : clean cs ≠ [] := by
  unfold clean
  simp only
  split
  · decide
  · next hempty => exact fun heq => hempty ⟨heq, h⟩

theorem toList_ofString_ne_nil {s : String} (hs : s ≠ "") : (ofString s).text.toList ≠ [] := by
  rw [ofString, String.toList_ofList]
  refine clean_ne_nil fun h => hs ?_
  simpa [unifySeparators] using h

theorem IsRooted.isAbsolute {path : Path} (h : path.IsRooted) : path.isAbsolute := by
  obtain ⟨rest, hrest⟩ := List.head?_eq_some_iff.1 h
  simp [Path.isAbsolute, hrest]

theorem isRooted_ofString {s : String} (h : s.toList.head? = some '/') :
    (ofString s).IsRooted := by
  obtain ⟨rest, hrest⟩ := List.head?_eq_some_iff.1 h
  rw [IsRooted, ofString, String.toList_ofList, hrest]
  exact head?_clean_slash _

/-- A path that is not empty, seen from a root, has no steps up. -/
theorem exists_isPlain_resolveAgainst {base : Path} (hbase : base.IsRooted)
    {s : String} (hs : s ≠ "") :
    ∃ root names, ((ofString s).resolveAgainst base).IsPlain root names := by
  unfold resolveAgainst
  split
  · next habsolute => exact exists_isPlain_ofString s habsolute
  · have hne := toList_ofString_ne_nil hs
    obtain ⟨rest, hrest⟩ := List.head?_eq_some_iff.1 hbase
    have hnebase : base.text.toList ≠ [] := by simp [hrest]
    have hjoined : ∀ t, (ofString (base.text ++ t)).isAbsolute := fun t =>
      (isRooted_ofString (by simp [hrest])).isAbsolute
    rw [join, if_neg hne, if_neg hnebase]
    split
    · exact exists_isPlain_ofString _ (hjoined _)
    · rw [String.append_assoc]
      exact exists_isPlain_ofString _ (hjoined _)

end BlockEdit.Path
