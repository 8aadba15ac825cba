import BlockEdit.Proofs.Path.Here

/-!
# What a path means

Without asking any file system, a path means a root and a walk from there: so many levels up, and
then names. `Meaning.ofText` reads this off a text, without normalizing it.

The normal form writes a meaning down (`clean_eq_chars`), and what it writes means the same
(`ofChars_clean`). So two texts have one normal form just when they mean the same, but for the empty
text, which stays empty (`ofString_canonical`). The shape of what is written is `IsNormal`.
-/

namespace BlockEdit.Path

/-- A root is read back in front of anything that does not start with a separator. -/
theorem rootOf_chars_append (root : Root) {cs : List Char} (h : cs.head? ≠ some '/') :
    rootOf (root.chars ++ cs) = root := by
  cases cs with
  | nil => cases root <;> rfl
  | cons c cs =>
    have hc : c ≠ '/' := by simpa using h
    cases root <;> simp [Root.chars, rootOf, hc]

/-- What a path means: its root, the number of levels that it leads up from there, and the names
through which it leads then, last one first. -/
structure Meaning where
  root : Root
  ups : Nat
  names : List (List Char)
  deriving DecidableEq, Repr

namespace Meaning

/-- The root of a path that starts with so many separators. -/
def rootOfSlashes : Nat → Root
  | 0 => .relative
  | 2 => .share
  | _ => .slash

/-- The meaning of a path that goes on with one more piece. -/
def enter (m : Meaning) (piece : List Char) : Meaning :=
  if piece = [] ∨ piece = here then m
  else if piece = up then
    match m.names with
    | _ :: names => { m with names }
    | [] => if m.root = .relative then { m with ups := m.ups + 1 } else m
  else { m with names := piece :: m.names }

/-- The meaning of a path whose separators are all `/`. -/
def ofChars (cs : List Char) : Meaning :=
  (pieces cs).foldl enter ⟨rootOfSlashes (cs.takeWhile (· = '/')).length, 0, []⟩

/-- The meaning of a path. -/
def ofText (s : String) : Meaning := ofChars (unifySeparators s.toList)

/-- The pieces that a meaning is written with, last one first. -/
def walked (m : Meaning) : List (List Char) := m.names ++ List.replicate m.ups up

/-- A meaning as it is written. -/
def chars (m : Meaning) : List Char :=
  if m.root.chars ++ joinPieces m.walked.reverse = [] then here
  else m.root.chars ++ joinPieces m.walked.reverse

/-- The names are names, and nothing leads up from a root. -/
structure IsSound (m : Meaning) : Prop where
  names : ∀ p ∈ m.names, IsNamePiece p
  ups : m.root ≠ .relative → m.ups = 0

variable {m : Meaning} {piece : List Char} {cs : List Char} {ps : List (List Char)}

theorem IsSound.upsAndNames (h : m.IsSound) : UpsAndNames m.root m.walked :=
  ⟨m.names, m.ups, rfl, h.names, h.ups⟩

theorem takeWhile_slash_eq_nil (h : ∀ rest, cs ≠ '/' :: rest) :
    cs.takeWhile (· = '/') = [] := by
  cases cs with
  | nil => rfl
  | cons c cs =>
    have hc : c ≠ '/' := fun hc => h cs (by rw [hc])
    simp [hc]

theorem rootOfSlashes_eq (cs : List Char) :
    rootOfSlashes (cs.takeWhile (· = '/')).length = rootOf cs := by
  fun_cases rootOf cs with
  | case1 cs => simp [rootOfSlashes]
  | case2 cs hthird => simp [takeWhile_slash_eq_nil hthird, rootOfSlashes]
  | case3 cs _ hsecond => simp [takeWhile_slash_eq_nil hsecond, rootOfSlashes]
  | case4 cs _ _ hfirst => simp [takeWhile_slash_eq_nil hfirst, rootOfSlashes]

/-! ### The walk along the pieces -/

theorem enter_stay (h : piece = [] ∨ piece = here) : m.enter piece = m := if_pos h

theorem enter_name (h : IsNamePiece piece) :
    m.enter piece = { m with names := piece :: m.names } := by
  obtain ⟨hne, hhere, hup, -⟩ := h
  rw [enter, if_neg (by simp [hne, hhere]), if_neg hup]

theorem root_enter : (m.enter piece).root = m.root := by
  unfold enter
  split
  · rfl
  split
  · split
    · rfl
    · split <;> rfl
  · rfl

/-- One more piece changes the meaning as it changes the pieces that were walked. -/
theorem IsSound.enter (h : m.IsSound) (hpiece : '/' ∉ piece) :
    (m.enter piece).IsSound ∧ (m.enter piece).walked = step m.root m.walked piece := by
  by_cases hstay : piece = [] ∨ piece = here
  · rw [enter_stay hstay, step_stay hstay]
    exact ⟨h, rfl⟩
  by_cases hup : piece = up
  · subst hup
    obtain ⟨root, ups, names⟩ := m
    cases names with
    | cons last names =>
      obtain ⟨hlast, hnames⟩ := List.forall_mem_cons.1 h.names
      exact ⟨⟨hnames, h.ups⟩, (step_up_name hlast.2.2.1).symm⟩
    | nil =>
      by_cases hroot : root = .relative
      · subst hroot
        refine ⟨⟨by simp [Meaning.enter, here, up], fun hne => absurd rfl hne⟩, ?_⟩
        cases ups <;> rfl
      · obtain rfl : ups = 0 := h.ups hroot
        have henter : Meaning.enter ⟨root, 0, []⟩ up = ⟨root, 0, []⟩ := if_neg hroot
        have hstep : step root [] up = [] := if_neg hroot
        rw [henter]
        exact ⟨h, hstep.symm⟩
  · have hname : IsNamePiece piece :=
      ⟨fun h => hstay (.inl h), fun h => hstay (.inr h), hup, hpiece⟩
    rw [enter_name hname, step_name hname]
    exact ⟨⟨List.forall_mem_cons.2 ⟨hname, h.names⟩, h.ups⟩, rfl⟩

theorem IsSound.foldl_enter (h : m.IsSound) (hps : ∀ p ∈ ps, '/' ∉ p) :
    (ps.foldl Meaning.enter m).IsSound ∧ (ps.foldl Meaning.enter m).root = m.root ∧
      (ps.foldl Meaning.enter m).walked = ps.foldl (step m.root) m.walked := by
  induction ps generalizing m with
  | nil => exact ⟨h, rfl, rfl⟩
  | cons p ps ih =>
    obtain ⟨hp, hps⟩ := List.forall_mem_cons.1 hps
    obtain ⟨hsound, hwalked⟩ := h.enter hp
    have hroot : (m.enter p).root = m.root := root_enter
    rw [List.foldl_cons, List.foldl_cons, ← hwalked, ← hroot]
    exact ih hsound hps

theorem isSound_start (root : Root) : IsSound ⟨root, 0, []⟩ := ⟨by simp, fun _ => rfl⟩

theorem isSound_ofChars (cs : List Char) : (ofChars cs).IsSound :=
  ((isSound_start _).foldl_enter fun _ => slash_not_mem_of_mem_pieces).1

theorem root_ofChars (cs : List Char) : (ofChars cs).root = rootOf cs := by
  rw [← rootOfSlashes_eq]
  exact ((isSound_start _).foldl_enter fun _ => slash_not_mem_of_mem_pieces).2.1

/-- The pieces that are left of a path are those of its meaning. -/
theorem walked_ofChars (cs : List Char) :
    (ofChars cs).walked.reverse = walk (rootOf cs) (pieces cs) := by
  have hps : ∀ p ∈ pieces cs, '/' ∉ p := fun _ => slash_not_mem_of_mem_pieces
  have h := ((isSound_start (rootOf cs)).foldl_enter hps).2.2
  rw [ofChars, rootOfSlashes_eq, h]
  rfl

/-- The normal form writes down what a path means. -/
theorem clean_eq_chars (hcs : cs ≠ []) : clean cs = (ofChars cs).chars := by
  rw [clean, chars, root_ofChars, walked_ofChars]
  simp [hcs]

/-! ### Reading what is written -/

theorem foldl_enter_ups (n : Nat) :
    (List.replicate n up).foldl enter ⟨.relative, 0, []⟩ = ⟨.relative, n, []⟩ := by
  induction n with
  | zero => rfl
  | succ n ih =>
    rw [List.replicate_succ', List.foldl_append, ih]
    rfl

theorem foldl_enter_names (hps : ∀ p ∈ ps, IsNamePiece p) (m : Meaning) :
    ps.foldl enter m = { m with names := ps.reverse ++ m.names } := by
  induction ps generalizing m with
  | nil => rfl
  | cons p ps ih =>
    obtain ⟨hp, hps⟩ := List.forall_mem_cons.1 hps
    rw [List.foldl_cons, enter_name hp, ih hps]
    simp

/-- The pieces of a meaning lead back to it. -/
theorem IsSound.foldl_walked (h : m.IsSound) :
    m.walked.reverse.foldl Meaning.enter ⟨m.root, 0, []⟩ = m := by
  obtain ⟨root, ups, names⟩ := m
  have hups : (List.replicate ups up).foldl Meaning.enter ⟨root, 0, []⟩ = ⟨root, ups, []⟩ := by
    by_cases hroot : root = .relative
    · rw [hroot, foldl_enter_ups]
    · obtain rfl : ups = 0 := h.ups hroot
      rfl
  have hnames : ∀ p ∈ names.reverse, IsNamePiece p := by simpa using h.names
  simp only [walked, List.reverse_append, List.reverse_replicate, List.foldl_append]
  rw [hups, foldl_enter_names hnames]
  simp

theorem IsSound.isPiece (h : m.IsSound) : ∀ p ∈ m.walked.reverse, p ≠ [] ∧ '/' ∉ p :=
  fun p hp => h.upsAndNames.isPiece p (List.mem_reverse.1 hp)

/-- The separators of a root lead nowhere. -/
theorem foldl_enter_chars (root : Root) (cs : List Char) :
    (pieces (root.chars ++ cs)).foldl enter m = (pieces cs).foldl enter m := by
  cases root <;> rfl

theorem foldl_enter_joinPieces (h : ∀ p ∈ ps, '/' ∉ p) :
    (pieces (joinPieces ps)).foldl enter m = ps.foldl enter m := by
  by_cases hnil : ps = []
  · subst hnil
    rfl
  · rw [pieces_joinPieces hnil h]

/-- What is written down means what was to be written. -/
theorem IsSound.ofChars_chars (h : m.IsSound) : ofChars m.chars = m := by
  have hread : ofChars (m.root.chars ++ joinPieces m.walked.reverse) = m := by
    rw [ofChars, rootOfSlashes_eq, rootOf_chars_append _ (head?_joinPieces h.isPiece),
      foldl_enter_chars, foldl_enter_joinPieces fun p hp => (h.isPiece p hp).2, h.foldl_walked]
  unfold chars
  split
  · next hnil =>
    rw [hnil] at hread
    rw [← hread]
    rfl
  · exact hread

/-- No piece of a meaning stays where it is. -/
theorem IsSound.here_not_mem (h : m.IsSound) : here ∉ m.walked.reverse := by
  rw [List.mem_reverse]
  intro hmem
  obtain hmem | hmem := List.mem_append.1 hmem
  · exact (h.names _ hmem).2.1 rfl
  · exact absurd (List.eq_of_mem_replicate hmem) (by decide)

/-- The pieces of a meaning are steps up, of which there are none behind a root, and then names. -/
theorem IsSound.exists_walked_eq (h : m.IsSound) :
    ∃ n rest, m.walked.reverse = List.replicate n up ++ rest ∧ up ∉ rest ∧
      (m.root ≠ .relative → n = 0) := by
  refine ⟨m.ups, m.names.reverse, by simp [walked], fun hmem => ?_, h.ups⟩
  exact (h.names _ (List.mem_reverse.1 hmem)).2.2.1 rfl

end Meaning

open Meaning

theorem clean_eq_nil_iff {cs : List Char} : clean cs = [] ↔ cs = [] :=
  ⟨fun h => not_not.1 fun hcs => clean_ne_nil hcs h, fun h => by rw [h]; rfl⟩

/-- Normalizing a path does not change what it means. -/
theorem ofChars_clean (cs : List Char) : ofChars (clean cs) = ofChars cs := by
  by_cases hcs : cs = []
  · subst hcs
    rfl
  · rw [clean_eq_chars hcs, (isSound_ofChars cs).ofChars_chars]

theorem clean_eq_clean_iff {cs ds : List Char} :
    clean cs = clean ds ↔ ofChars cs = ofChars ds ∧ (cs = [] ↔ ds = []) := by
  constructor
  · intro h
    have hnil : clean cs = [] ↔ clean ds = [] := by rw [h]
    rw [clean_eq_nil_iff, clean_eq_nil_iff] at hnil
    exact ⟨by rw [← ofChars_clean cs, h, ofChars_clean], hnil⟩
  · rintro ⟨hmeaning, hnil⟩
    by_cases hcs : cs = []
    · rw [hcs, hnil.1 hcs]
    · rw [clean_eq_chars hcs, clean_eq_chars fun hds => hcs (hnil.2 hds), hmeaning]

theorem clean_clean (cs : List Char) : clean (clean cs) = clean cs :=
  clean_eq_clean_iff.2 ⟨ofChars_clean cs, clean_eq_nil_iff⟩

/-! ### The shape of the normal form -/

/-- A text in normal form. -/
structure IsNormal (cs : List Char) : Prop where
  no_backslash : '\\' ∉ cs
  /-- Two separators in a row are the first two characters, and no third one follows. -/
  doubled : ∀ front rest, cs = front ++ '/' :: '/' :: rest → front = [] ∧ rest.head? ≠ some '/'
  here_alone : here ∈ pieces cs → cs = here
  trailing : cs.getLast? = some '/' → cs = ['/'] ∨ cs = ['/', '/']
  /-- Steps up come first, and not behind a root. -/
  ups : ∃ n rest, pieces cs = List.replicate n up ++ rest ∧ up ∉ rest ∧
    (cs.head? = some '/' → n = 0)

section Shape

variable {cs front rest p : List Char} {ps : List (List Char)} {root : Root}

theorem mem_pieces_chars_append (hps : ∀ p ∈ ps, '/' ∉ p)
    (hp : p ∈ pieces (root.chars ++ joinPieces ps)) : p = [] ∨ p ∈ ps := by
  have hjoin : p ∈ pieces (joinPieces ps) → p = [] ∨ p ∈ ps := fun hp => by
    by_cases hnil : ps = []
    · subst hnil
      exact .inl (by simpa [joinPieces, pieces] using hp)
    · rw [pieces_joinPieces hnil hps] at hp
      exact .inr hp
  cases root with
  | relative => exact hjoin hp
  | slash => exact (List.mem_cons.1 hp).elim .inl hjoin
  | share =>
    obtain hp | hp := List.mem_cons.1 hp
    · exact .inl hp
    · exact (List.mem_cons.1 hp).elim .inl hjoin

/-- Behind a root, only the two marks of a share can be two separators in a row. -/
theorem doubled_chars_append (hps : ∀ p ∈ ps, p ≠ [] ∧ '/' ∉ p)
    (heq : root.chars ++ joinPieces ps = front ++ '/' :: '/' :: rest) :
    front = [] ∧ rest.head? ≠ some '/' := by
  have hdouble : ∀ front, joinPieces ps ≠ front ++ '/' :: '/' :: rest := fun front h =>
    (joinPieces_eq_append hps h).2 (by simp)
  have hsingle : joinPieces ps ≠ [] ++ '/' :: rest := fun h =>
    (joinPieces_eq_append hps h).1 (by simp [pieces])
  cases root with
  | relative => exact absurd heq (hdouble front)
  | slash =>
    cases front with
    | nil => exact absurd (List.cons.inj heq).2 hsingle
    | cons c front => exact absurd (List.cons.inj heq).2 (hdouble front)
  | share =>
    obtain _ | ⟨c, front⟩ := front
    · have hrest : joinPieces ps = rest := (List.cons.inj (List.cons.inj heq).2).2
      exact ⟨rfl, hrest ▸ head?_joinPieces hps⟩
    obtain _ | ⟨d, front⟩ := front
    · exact absurd (List.cons.inj (List.cons.inj heq).2).2 hsingle
    · exact absurd (List.cons.inj (List.cons.inj heq).2).2 (hdouble front)

theorem trailing_chars_append (hps : ∀ p ∈ ps, p ≠ [] ∧ '/' ∉ p)
    (h : (root.chars ++ joinPieces ps).getLast? = some '/') :
    root.chars ++ joinPieces ps = ['/'] ∨ root.chars ++ joinPieces ps = ['/', '/'] := by
  by_cases hnil : joinPieces ps = []
  · rw [hnil, List.append_nil] at h ⊢
    cases root with
    | relative => cases h
    | slash => exact .inl rfl
    | share => exact .inr rfl
  · rw [List.getLast?_append, List.getLast?_eq_some_getLast hnil, Option.some_or] at h
    have hsplit := List.dropLast_append_getLast hnil
    rw [Option.some.inj h] at hsplit
    exact absurd (by simp [pieces]) (joinPieces_eq_append hps hsplit.symm).2

theorem ups_chars_append (hps : ∀ p ∈ ps, p ≠ [] ∧ '/' ∉ p)
    (h : ∃ n rest, ps = List.replicate n up ++ rest ∧ up ∉ rest ∧ (root ≠ .relative → n = 0)) :
    ∃ n rest, pieces (root.chars ++ joinPieces ps) = List.replicate n up ++ rest ∧ up ∉ rest ∧
      ((root.chars ++ joinPieces ps).head? = some '/' → n = 0) := by
  obtain ⟨n, rest, hwalked, hup, hroot⟩ := h
  by_cases hrelative : root = .relative
  · subst hrelative
    have hhead : (joinPieces ps).head? ≠ some '/' := head?_joinPieces hps
    by_cases hnil : ps = []
    · subst hnil
      exact ⟨0, [[]], rfl, by decide, fun _ => rfl⟩
    · exact ⟨n, rest, (pieces_joinPieces hnil fun p hp => (hps p hp).2).trans hwalked, hup,
        fun h => absurd h hhead⟩
  · obtain rfl := hroot hrelative
    refine ⟨0, _, rfl, fun hmem => ?_, fun _ => rfl⟩
    rcases mem_pieces_chars_append (fun p hp => (hps p hp).2) hmem with hnil | hmem
    · cases hnil
    · rw [hwalked] at hmem
      exact hup hmem

theorem isNormal_nil : IsNormal [] where
  no_backslash := by simp
  doubled front rest h := by simp at h
  here_alone h := by simp [pieces, here] at h
  trailing h := by simp at h
  ups := ⟨0, [[]], rfl, by decide, fun _ => rfl⟩

theorem isNormal_here : IsNormal here where
  no_backslash := by decide
  doubled front rest h := by
    obtain _ | ⟨c, front⟩ := front <;> simp [here] at h
  here_alone _ := rfl
  trailing h := by simp [here] at h
  ups := ⟨0, [here], rfl, by decide, fun _ => rfl⟩

theorem isNormal_clean (h : '\\' ∉ cs) : IsNormal (clean cs) := by
  have hbackslash := backslash_not_mem_clean h
  by_cases hcs : cs = []
  · subst hcs
    exact isNormal_nil
  rw [clean_eq_chars hcs] at hbackslash ⊢
  have hsound := isSound_ofChars cs
  generalize ofChars cs = m at hsound hbackslash ⊢
  have hps := hsound.isPiece
  unfold chars at hbackslash ⊢
  split
  · exact isNormal_here
  next hne =>
  rw [if_neg hne] at hbackslash
  refine ⟨hbackslash, fun front rest => doubled_chars_append hps, fun hhere => ?_,
    trailing_chars_append hps, ups_chars_append hps hsound.exists_walked_eq⟩
  rcases mem_pieces_chars_append (fun p hp => (hps p hp).2) hhere with hnil | hmem
  · cases hnil
  · exact absurd hmem hsound.here_not_mem

end Shape

/-! ### Normal forms of texts -/

theorem text_ofString (s : String) :
    (ofString s).text = String.ofList (clean (unifySeparators s.toList)) := rfl

theorem ofString_inj_iff {p q : String} :
    ofString p = ofString q ↔
      clean (unifySeparators p.toList) = clean (unifySeparators q.toList) := by
  rw [ofString, ofString, Path.mk.injEq, String.ofList_inj]

theorem unifySeparators_eq_nil_iff {s : String} : unifySeparators s.toList = [] ↔ s = "" := by
  simp [unifySeparators]

/-- The normal form of a path is a canonical form of its meaning: two texts have the same one just
when they mean the same, except that the empty text has its own. It is a text in normal form, and
its own normal form. -/
theorem ofString_canonical (p q : String) :
    (ofString p = ofString q ↔ ofText p = ofText q ∧ (p = "" ↔ q = "")) ∧
      IsNormal (ofString p).text.toList ∧ ofString (ofString p).text = ofString p := by
  have hplain := backslash_not_mem_unifySeparators p.toList
  refine ⟨?_, ?_, ?_⟩
  · rw [ofString_inj_iff, clean_eq_clean_iff, unifySeparators_eq_nil_iff,
      unifySeparators_eq_nil_iff]
    rfl
  · rw [text_ofString, String.toList_ofList]
    exact isNormal_clean hplain
  · rw [ofString_inj_iff, text_ofString, String.toList_ofList,
      unifySeparators_of_not_mem (backslash_not_mem_clean hplain), clean_clean]

example : (ofString "\\\\srv/./a//../b/").text = "//srv/b" := by decide +kernel

end BlockEdit.Path
