import BlockEdit.Proofs.Path.Joining

/-!
# Taking a path apart and joining it again

A path in normal form spells out its root and the pieces of its meaning, last one first
(`IsNormalized.spells`), and whatever spells them out is in normal form and means that
(`Spells.isNormalized`, `Spells.meaning_eq`). So where the parent spells out all pieces but the last
one behind the same root, joining the name to it leads back to the path (`Spells.join_eq`).

The only path whose parent has another root is that of a server alone, `//` and one name: what is in
front of it is `/`, and the name is joined to that (`parent?_fileName?`).

A parent has fewer segments than its path (`segments_parent?_lt`), so there are not more parents
than segments.
-/

namespace BlockEdit.Path

open Meaning

variable {path d : Path} {root : Root} {walked : List (List Char)} {p : List Char}

/-! ### What a path spells out -/

theorem Spells.root_eq (h : path.Spells root walked) : path.root = root := by
  rw [Path.root, h.text]
  exact rootOf_chars_append root
    (head?_joinPieces fun p hp => h.upsAndNames.isPiece p (List.mem_reverse.1 hp))

/-- The pieces that a path spells out lead to what it means. -/
theorem Spells.meaning_eq (h : path.Spells root walked) :
    path.meaning = walked.reverse.foldl enter ⟨root, 0, []⟩ := by
  have hps : ∀ p ∈ walked.reverse, '/' ∉ p := fun p hp =>
    (h.upsAndNames.isPiece p (List.mem_reverse.1 hp)).2
  have hroot : rootOf path.text.toList = root := h.root_eq
  rw [meaning, ofChars, rootOfSlashes_eq, hroot, h.text, foldl_enter_chars,
    foldl_enter_joinPieces hps]

theorem Spells.walked_meaning (h : path.Spells root walked) : path.meaning.walked = walked := by
  have hps : ∀ p ∈ walked.reverse, '/' ∉ p := fun p hp =>
    (h.upsAndNames.isPiece p (List.mem_reverse.1 hp)).2
  rw [h.meaning_eq, ((isSound_start root).foldl_enter hps).2.2]
  exact foldl_step_reverse h.upsAndNames

/-- A path that spells out its pieces is in normal form. -/
theorem Spells.isNormalized (h : path.Spells root walked) (hback : '\\' ∉ path.text.toList) :
    path.IsNormalized := by
  have hclean : clean path.text.toList = path.text.toList := by
    by_cases hne : path.text.toList = []
    · rw [hne]
      rfl
    · have hchars : path.meaning.chars = path.text.toList := by
        rw [chars, root_meaning, h.root_eq, h.walked_meaning, ← h.text, if_neg hne]
      exact (clean_eq_chars hne).trans hchars
  rw [IsNormalized, ofString, unifySeparators_of_not_mem hback, hclean, String.ofList_toList]

/-- A path in normal form spells out its root and the pieces of its meaning, unless it is `.`. -/
theorem IsNormalized.spells (h : path.IsNormalized) :
    path.Spells path.root path.meaning.walked ∨ path.text = "." := by
  by_cases hne : path.text = ""
  · left
    obtain ⟨text⟩ := path
    obtain rfl : text = "" := hne
    exact ⟨rfl, (isSound_meaning ⟨""⟩).upsAndNames⟩
  · have hchars := h.toList_eq_chars hne
    rw [chars] at hchars
    split at hchars
    · exact .inr (String.toList_inj.1 hchars)
    · left
      refine ⟨by rw [hchars, root_meaning], ?_⟩
      rw [← root_meaning]
      exact (isSound_meaning path).upsAndNames

theorem Spells.backslash_mem_iff (h : path.Spells root walked) :
    '\\' ∈ path.text.toList ↔ ∃ q ∈ walked, '\\' ∈ q := by
  have hroot : '\\' ∉ root.chars := by cases root <;> decide
  rw [h.text, List.mem_append, or_iff_right hroot, mem_joinPieces (by decide)]
  simp

/-- Joining one more piece to a path that spells out all others. -/
theorem Spells.join_eq (h : path.Spells root (p :: walked)) (hpath : path.IsNormalized)
    (hd : d.Spells root walked) (hd' : d.IsNormalized) : d.join (String.ofList p) = path := by
  obtain ⟨hne, hslash⟩ := h.upsAndNames.isPiece p (by simp)
  have hback : '\\' ∉ p := fun hmem =>
    hpath.backslash_not_mem (h.backslash_mem_iff.2 ⟨p, by simp, hmem⟩)
  have hbelow : IsBelow (String.ofList p) := by
    refine ⟨by simpa using hne, fun hhead => hslash ?_, fun hhead => hback ?_⟩
    · exact List.mem_of_mem_head? (by simpa using hhead)
    · exact List.mem_of_mem_head? (by simpa using hhead)
  have hmeaning : (d.join (String.ofList p)).meaning = path.meaning := by
    rw [hd'.meaning_join hbelow, String.toList_ofList, unifySeparators_of_not_mem hback,
      pieces_eq_singleton hslash, hd.meaning_eq, h.meaning_eq, List.reverse_cons, List.foldl_append]
  have hpathNe : path.text ≠ "" := fun hempty => by
    have hwalked := h.walked_meaning
    rw [meaning, hempty] at hwalked
    cases hwalked
  exact (hd'.isNormalized_join _).ext hpath hmeaning
    (iff_of_false (text_join_ne_empty hbelow.1) hpathNe)

/-! ### Parents of parents -/

/-- The number of segments of a path. -/
def segments (path : Path) : Nat := (named path.text.toList).length

/-- The path that is reached from a path by taking the parent so many times. -/
def ancestor? : Nat → Path → Option Path
  | 0, path => some path
  | n + 1, path => path.parent?.bind (ancestor? n)

theorem named_ne_nil {name tail : List Char} (hne : name ≠ []) (hslash : '/' ∉ name)
    (htail : ∀ c ∈ tail, c = '/') : named (name ++ tail) ≠ [] := by
  cases tail with
  | nil => simp [named_eq_singleton hne hslash]
  | cons c tail =>
    obtain rfl : c = '/' := htail c (by simp)
    simp [named_append, named_eq_singleton hne hslash]

/-- A parent has fewer segments than its path. -/
theorem segments_parent?_lt (h : path.parent? = some d) : d.segments < path.segments := by
  obtain ⟨front, name, tail, htext, hne, hslash, htail, hd⟩ := parent?_eq_some h
  have hfront : named d.text.toList = named front := by
    rw [hd]
    split
    · next hnil =>
      rw [hnil]
      rfl
    · rfl
  have hname := List.length_pos_of_ne_nil (named_ne_nil hne hslash htail)
  rw [segments, segments, hfront, htext, named_append, List.length_append]
  omega

theorem ancestor?_eq_none {n : Nat} (h : path.segments < n) : path.ancestor? n = none := by
  induction n generalizing path with
  | zero => exact absurd h (Nat.not_lt_zero _)
  | succ n ih =>
    cases hparent : path.parent? with
    | none => rw [ancestor?, hparent, Option.bind_none]
    | some d =>
      have hlt := segments_parent?_lt hparent
      rw [ancestor?, hparent, Option.bind_some, ih (by omega)]

theorem Spells.segments_eq (h : path.Spells root walked) : path.segments = walked.length := by
  have hps : ∀ p ∈ walked.reverse, p ≠ [] ∧ '/' ∉ p := fun p hp =>
    h.upsAndNames.isPiece p (List.mem_reverse.1 hp)
  have hroot : named (root.chars ++ joinPieces walked.reverse) =
      named (joinPieces walked.reverse) := by
    cases root <;> simp [Root.chars]
  rw [segments, h.text, hroot, named_joinPieces hps, List.length_reverse]

/-! ### Parents and names -/

/-- The path is a share with a server alone. -/
def IsServer (path : Path) : Prop := path.root = .share ∧ path.segments = 1

instance (path : Path) : Decidable path.IsServer := inferInstanceAs (Decidable (_ ∧ _))

/-- Where a path is not a server alone, its parent spells out all pieces but the last one behind the
same root. -/
theorem Spells.parent?_eq (h : path.Spells root walked) (hparent : path.parent? = some d) :
    ∃ p rest, walked = p :: rest ∧ path.fileName? = some (String.ofList p) ∧
      (d.Spells root rest ∧ ¬path.IsServer ∨ root = .share ∧ rest = [] ∧ d = ⟨"/"⟩) := by
  have hserver : path.IsServer → root = .share ∧ walked.length = 1 := fun hserver =>
    ⟨h.root_eq.symm.trans hserver.1, h.segments_eq.symm.trans hserver.2⟩
  obtain _ | ⟨p, _ | ⟨q, rest⟩⟩ := walked
  · rw [h.parent?_nil] at hparent
    cases hparent
  · cases root with
    | relative =>
      rw [h.parent?_relative] at hparent
      cases hparent
    | slash =>
      obtain ⟨hslash, hname⟩ := h.parent?_root (by decide)
      obtain rfl : ⟨"/"⟩ = d := Option.some.inj (hslash.symm.trans hparent)
      exact ⟨p, [], rfl, hname, .inl ⟨spells_slash, fun h => absurd (hserver h).1 (by decide)⟩⟩
    | share =>
      obtain ⟨hslash, hname⟩ := h.parent?_root (by decide)
      exact ⟨p, [], rfl, hname, .inr ⟨rfl, rfl, Option.some.inj (hparent.symm.trans hslash)⟩⟩
  · obtain ⟨parent, hparent', hspells, hname⟩ := h.parent?_pieces (List.cons_ne_nil q rest)
    obtain rfl : parent = d := Option.some.inj (hparent'.symm.trans hparent)
    exact ⟨p, q :: rest, rfl, hname, .inl ⟨hspells, fun h => by simpa using (hserver h).2⟩⟩

/-- The name of a server that is joined to `/` is in the root directory. -/
theorem Spells.join_server (h : path.Spells .share [p]) (hpath : path.IsNormalized) :
    (join ⟨"/"⟩ (String.ofList p)).root = .slash := by
  have hback : ∀ q ∈ [p], '\\' ∉ q := fun q hq hmem =>
    hpath.backslash_not_mem (h.backslash_mem_iff.2 ⟨q, hq, hmem⟩)
  obtain ⟨names, n, hwalked, hnames, hroot⟩ := h.upsAndNames
  have hbelow : Spells ⟨String.ofList ('/' :: p)⟩ .slash [p] :=
    ⟨String.toList_ofList, names, n, hwalked, hnames, fun _ => hroot (by decide)⟩
  have hnormal : IsNormalized ⟨String.ofList ('/' :: p)⟩ := by
    refine hbelow.isNormalized fun hmem => ?_
    obtain ⟨q, hq, hmem⟩ := hbelow.backslash_mem_iff.1 hmem
    exact hback q hq hmem
  rw [hbelow.join_eq hnormal spells_slash (by decide +kernel)]
  exact hbelow.root_eq

/-- A path in normal form that has a parent has a name, and the name joined to the parent is the
path, which has the same root, unless the path is a server alone: its parent is `/`. There are not
more parents than segments. -/
theorem parent?_fileName? (hpath : path.IsNormalized) :
    (∀ d, path.parent? = some d → d.IsNormalized ∧ ∃ n, path.fileName? = some n ∧
      (¬path.IsServer → d.join n = path ∧ d.root = path.root) ∧
      (path.IsServer → d = ⟨"/"⟩ ∧ d.join n ≠ path ∧ d.root ≠ path.root)) ∧
    path.ancestor? (path.segments + 1) = none := by
  refine ⟨fun d hparent => ?_, ancestor?_eq_none (Nat.lt_succ_self _)⟩
  obtain hspells | hhere := hpath.spells
  · generalize path.meaning.walked = walked at hspells
    obtain ⟨p, rest, rfl, hname, ⟨hd, hserver⟩ | ⟨hshare, rfl, rfl⟩⟩ := hspells.parent?_eq hparent
    · have hback : '\\' ∉ d.text.toList := fun hmem => by
        obtain ⟨q, hq, hmem⟩ := hd.backslash_mem_iff.1 hmem
        exact hpath.backslash_not_mem
          (hspells.backslash_mem_iff.2 ⟨q, List.mem_cons_of_mem _ hq, hmem⟩)
      have hd' := hd.isNormalized hback
      exact ⟨hd', _, hname, fun _ => ⟨hspells.join_eq hpath hd hd', hd.root_eq⟩,
        fun h => absurd h hserver⟩
    · rw [hshare] at hspells
      have hserver : path.IsServer := ⟨hshare, hspells.segments_eq⟩
      have hslash := hspells.join_server hpath
      refine ⟨by decide +kernel, _, hname, fun h => absurd hserver h, fun _ => ⟨rfl, ?_, ?_⟩⟩
      · intro heq
        rw [heq, hshare] at hslash
        cases hslash
      · rw [hshare]
        decide +kernel
  · obtain ⟨text⟩ := path
    obtain rfl : text = "." := hhere
    cases hparent

/-- A step up at the end of a path is taken off like a name. -/
theorem parent?_fileName?_step_up :
    IsNormalized ⟨"../.."⟩ ∧ parent? ⟨"../.."⟩ = some ⟨".."⟩ ∧ fileName? ⟨"../.."⟩ = some ".." ∧
      join ⟨".."⟩ ".." = ⟨"../.."⟩ ∧ ancestor? 3 ⟨"../.."⟩ = none := by
  have hpath : IsNormalized ⟨"../.."⟩ := by decide +kernel
  have hparent : parent? ⟨"../.."⟩ = some ⟨".."⟩ := by decide +kernel
  have hfileName : fileName? ⟨"../.."⟩ = some ".." := by decide +kernel
  obtain ⟨hparts, hnone⟩ := parent?_fileName? hpath
  obtain ⟨-, n, hname, hjoin, -⟩ := hparts _ hparent
  obtain rfl : ".." = n := Option.some.inj (hfileName.symm.trans hname)
  exact ⟨hpath, hparent, hfileName, (hjoin (by decide +kernel)).1, hnone⟩

/-- The parent of a server is the root directory, and the server is lost in it. -/
theorem server_lost_in_parent :
    IsNormalized ⟨"//server"⟩ ∧ parent? ⟨"//server"⟩ = some ⟨"/"⟩ ∧
      fileName? ⟨"//server"⟩ = some "server" ∧ join ⟨"/"⟩ "server" = ⟨"/server"⟩ ∧
      Path.root ⟨"//server"⟩ = .share ∧ Path.root ⟨"/"⟩ = .slash := by
  decide +kernel

end BlockEdit.Path
