import BlockEdit.Proofs.Path.Meaning
import Mathlib.Data.List.Induction

/-!
# Joining paths

A segment is written behind a base with a separator between them (`seam`), and the whole is read
from the start again. Where the segment starts with no separator of its own, this goes on from the
base: what the joined path means is where the pieces of the segment lead from the meaning of the
base (`meaning_join`). So joining twice is joining once with both segments, and because the pieces
that are left of a segment lead to the same place as all of its pieces (`foldl_enter_clean`), it
makes no difference whether a segment is normalized before it is joined (`join_join`). Separators at
the start of a segment are another matter: they count together with those of a base that is a root
(`slashes_seam_append`).
-/

namespace BlockEdit.Path

open Meaning

variable {p q b path : Path} {cs ss : List Char} {s : String}

/-! ### Paths in normal form -/

/-- The path is in normal form. -/
def IsNormalized (path : Path) : Prop := ofString path.text = path

instance (path : Path) : Decidable path.IsNormalized := inferInstanceAs (Decidable (_ = _))

/-- The root of a path. -/
def root (path : Path) : Root := rootOf path.text.toList

/-- What a path means. -/
def meaning (path : Path) : Meaning := ofChars path.text.toList

theorem toList_text_ofString (s : String) :
    (ofString s).text.toList = clean (unifySeparators s.toList) := by
  rw [text_ofString, String.toList_ofList]

theorem isNormalized_ofString (s : String) : (ofString s).IsNormalized := by
  have hplain := backslash_not_mem_clean (backslash_not_mem_unifySeparators s.toList)
  rw [IsNormalized, ofString_inj_iff, toList_text_ofString, unifySeparators_of_not_mem hplain,
    clean_clean]

theorem IsNormalized.backslash_not_mem (h : path.IsNormalized) : '\\' ∉ path.text.toList := by
  rw [← h, toList_text_ofString]
  exact backslash_not_mem_clean (backslash_not_mem_unifySeparators _)

theorem IsNormalized.unifySeparators_eq (h : path.IsNormalized) :
    unifySeparators path.text.toList = path.text.toList :=
  unifySeparators_of_not_mem h.backslash_not_mem

theorem IsNormalized.clean_eq (h : path.IsNormalized) :
    clean path.text.toList = path.text.toList := by
  conv_rhs => rw [← h, toList_text_ofString, h.unifySeparators_eq]

theorem root_meaning (path : Path) : path.meaning.root = path.root := root_ofChars _

theorem isSound_meaning (path : Path) : path.meaning.IsSound := isSound_ofChars _

theorem toList_text_eq_nil_iff : path.text.toList = [] ↔ path.text = "" := by simp

/-- A path in normal form that is not empty is the written form of its meaning. -/
theorem IsNormalized.toList_eq_chars (h : path.IsNormalized) (hne : path.text ≠ "") :
    path.text.toList = path.meaning.chars := by
  rw [← h.clean_eq, clean_eq_chars (mt toList_text_eq_nil_iff.1 hne), meaning]

/-- Paths in normal form that mean the same are the same, unless one of them is empty. -/
theorem IsNormalized.ext (hp : p.IsNormalized) (hq : q.IsNormalized)
    (hmeaning : p.meaning = q.meaning) (hempty : p.text = "" ↔ q.text = "") : p = q := by
  have htext : clean p.text.toList = clean q.text.toList := by
    rw [clean_eq_clean_iff, toList_text_eq_nil_iff, toList_text_eq_nil_iff]
    exact ⟨hmeaning, hempty⟩
  rw [hp.clean_eq, hq.clean_eq, String.toList_inj] at htext
  exact congrArg Path.mk htext

/-! ### The separator between base and segment -/

/-- A base with a separator behind it, unless it ends with one. -/
def seam (cs : List Char) : List Char := if cs.getLast? = some '/' then cs else cs ++ ['/']

theorem seam_eq (cs : List Char) : ∃ front, seam cs = front ++ ['/'] ∧
    (cs = front ∨ cs = front ++ ['/']) := by
  unfold seam
  split
  · next hlast =>
    obtain ⟨front, rfl⟩ := List.getLast?_eq_some_iff.1 hlast
    exact ⟨front, rfl, .inr rfl⟩
  · exact ⟨cs, rfl, .inl rfl⟩

theorem seam_ne_nil (cs : List Char) : seam cs ≠ [] := by
  obtain ⟨front, hseam, -⟩ := seam_eq cs
  simp [hseam]

/-- Behind the separator, a walk along the base goes on with the pieces of the segment. -/
theorem foldl_enter_seam (cs ss : List Char) (m : Meaning) :
    (pieces (seam cs ++ ss)).foldl enter m =
      (pieces ss).foldl enter ((pieces cs).foldl enter m) := by
  obtain ⟨front, hseam, hcs⟩ := seam_eq cs
  have hfront : (pieces cs).foldl enter m = (pieces front).foldl enter m := by
    obtain rfl | rfl := hcs
    · rfl
    · rw [pieces_append, List.foldl_append]
      rfl
  rw [hseam, List.append_assoc, List.singleton_append, pieces_append, List.foldl_append, hfront]

/-- The number of separators at the start of a text. -/
def slashes (cs : List Char) : Nat := (cs.takeWhile (· = '/')).length

theorem slashes_eq_zero (h : cs.head? ≠ some '/') : slashes cs = 0 := by
  cases cs with
  | nil => rfl
  | cons c cs => simpa [slashes] using h

/-- The separators of a segment stand at the start of the joined text where the base has nothing
else. -/
theorem slashes_seam_append (hcs : cs ≠ []) :
    slashes (seam cs ++ ss) = slashes cs + if cs.all (· = '/') then slashes ss else 0 := by
  unfold slashes
  split
  · next hall =>
    have hall : ∀ c ∈ cs, c = '/' := by simpa using hall
    have hlast : cs.getLast? = some '/' := by
      rw [List.getLast?_eq_some_getLast hcs, hall _ (List.getLast_mem hcs)]
    have htake : cs.takeWhile (· = '/') = cs := List.takeWhile_eq_self_iff.2 (by simpa using hall)
    rw [seam, if_pos hlast, List.takeWhile_append_of_pos (by simpa using hall), htake,
      List.length_append]
  · next hall =>
    have hshort : (cs.takeWhile (· = '/')).length ≠ cs.length := fun hlength => by
      refine hall (List.all_eq_true.2 fun c hc => ?_)
      rw [← (List.takeWhile_prefix _).eq_of_length hlength] at hc
      simpa using List.mem_takeWhile_imp hc
    have hfront : ∀ rest, (cs ++ rest).takeWhile (· = '/') = cs.takeWhile (· = '/') := by
      intro rest
      rw [List.takeWhile_append, if_neg hshort]
    unfold seam
    split
    · rw [hfront, Nat.add_zero]
    · rw [List.append_assoc, hfront, Nat.add_zero]

/-- A segment that starts with no separator does not change the root of the base. -/
theorem rootOf_seam_append (hcs : cs ≠ []) (hss : ss.head? ≠ some '/') :
    rootOf (seam cs ++ ss) = rootOf cs := by
  have hslashes : slashes (seam cs ++ ss) = slashes cs := by
    rw [slashes_seam_append hcs, slashes_eq_zero hss, ite_self, Nat.add_zero]
  rw [← rootOfSlashes_eq, ← rootOfSlashes_eq]
  exact congrArg rootOfSlashes hslashes

theorem ofChars_of_head? (h : cs.head? ≠ some '/') :
    ofChars cs = (pieces cs).foldl enter ⟨.relative, 0, []⟩ := by
  have hroot : rootOf cs = .relative := rootOf_chars_append .relative h
  rw [ofChars, rootOfSlashes_eq, hroot]

/-- Such a segment goes on from what the base means. -/
theorem ofChars_seam_append (hcs : cs ≠ []) (hss : ss.head? ≠ some '/') :
    ofChars (seam cs ++ ss) = (pieces ss).foldl enter (ofChars cs) := by
  rw [ofChars, ofChars, rootOfSlashes_eq, rootOfSlashes_eq, rootOf_seam_append hcs hss,
    foldl_enter_seam]

/-! ### Joined paths -/

theorem unifySeparators_append (cs ds : List Char) :
    unifySeparators (cs ++ ds) = unifySeparators cs ++ unifySeparators ds := List.map_append

/-- What is joined to a path that is not empty is read behind it. -/
theorem IsNormalized.toList_text_join (hb : b.IsNormalized) (hne : b.text ≠ "") (s : String) :
    (b.join s).text.toList = clean (seam b.text.toList ++ unifySeparators s.toList) := by
  have hcs : b.text.toList ≠ [] := mt toList_text_eq_nil_iff.1 hne
  by_cases hs : s.toList = []
  · have hsame : clean (seam b.text.toList ++ []) = clean b.text.toList := by
      rw [clean_eq_clean_iff, ofChars_seam_append hcs (by simp), List.append_nil]
      exact ⟨rfl, iff_of_false (seam_ne_nil _) hcs⟩
    rw [join, if_pos hs, hs]
    exact (hsame.trans hb.clean_eq).symm
  · rw [join, if_neg hs, if_neg hcs, seam]
    split
    · rw [toList_text_ofString, String.toList_append, unifySeparators_append,
        hb.unifySeparators_eq]
    · rw [toList_text_ofString, String.toList_append, String.toList_append, unifySeparators_append,
        unifySeparators_append, hb.unifySeparators_eq]
      rfl

theorem IsNormalized.isNormalized_join (hb : b.IsNormalized) (s : String) :
    (b.join s).IsNormalized := by
  unfold join
  split
  · exact hb
  split
  · exact isNormalized_ofString s
  split <;> exact isNormalized_ofString _

/-- The segment is not empty and starts with no separator. -/
def IsBelow (s : String) : Prop :=
  s ≠ "" ∧ s.toList.head? ≠ some '/' ∧ s.toList.head? ≠ some '\\'

instance (s : String) : Decidable (IsBelow s) := inferInstanceAs (Decidable (_ ∧ _))

theorem IsBelow.head? (h : IsBelow s) : (unifySeparators s.toList).head? ≠ some '/' := by
  obtain ⟨-, hslash, hback⟩ := h
  rw [unifySeparators, List.head?_map]
  intro hhead
  obtain ⟨c, hc, heq⟩ := Option.map_eq_some_iff.1 hhead
  split at heq
  · next hback' => exact hback (by rw [hc, hback'])
  · exact hslash (by rw [hc, heq])

theorem IsBelow.append (h : IsBelow s) (rest : String) : IsBelow (s ++ "/" ++ rest) := by
  obtain ⟨hne, hslash, hback⟩ := h
  have hhead : (s ++ "/" ++ rest).toList.head? = s.toList.head? := by
    rw [String.append_assoc, String.toList_append,
      List.head?_append_of_ne_nil _ (by simpa using hne)]
  refine ⟨by simp [hne], ?_, ?_⟩ <;> rwa [hhead]

theorem text_join_ne_empty (hs : s ≠ "") : (b.join s).text ≠ "" := by
  have htext : ∀ t : String, t ≠ "" → (ofString t).text ≠ "" := fun t ht hempty =>
    toList_ofString_ne_nil ht (toList_text_eq_nil_iff.2 hempty)
  rw [join, if_neg (by simpa using hs)]
  split
  · exact htext s hs
  split <;> exact htext _ (by simp [hs])

theorem text_join_ne_empty_of_base (hne : b.text ≠ "") : (b.join s).text ≠ "" := by
  by_cases hs : s = ""
  · rwa [join, if_pos (by simp [hs])]
  · exact text_join_ne_empty hs

/-- The pieces of a segment lead on from what the base means. -/
theorem IsNormalized.meaning_join (hb : b.IsNormalized) (hs : IsBelow s) :
    (b.join s).meaning = (pieces (unifySeparators s.toList)).foldl enter b.meaning := by
  by_cases hne : b.text = ""
  · have hjoin : b.join s = ofString s := by
      rw [join, if_neg (by simpa using hs.1), if_pos (by simp [hne])]
    rw [hjoin, meaning, toList_text_ofString, ofChars_clean, ofChars_of_head? hs.head?, meaning,
      hne]
    rfl
  · rw [meaning, hb.toList_text_join hne, ofChars_clean,
      ofChars_seam_append (mt toList_text_eq_nil_iff.1 hne) hs.head?, meaning]

/-! ### Walking what is left of a segment -/

/-- Where the pieces that are left of a walk lead to the same place as its own pieces, this is still
so after one more piece. -/
theorem Meaning.IsSound.foldl_walked_enter {n : Meaning} (h : n.IsSound)
    (hroot : n.root = .relative) {piece : List Char} (hpiece : '/' ∉ piece) (m : Meaning) :
    (n.enter piece).walked.reverse.foldl Meaning.enter m =
      (n.walked.reverse.foldl Meaning.enter m).enter piece := by
  by_cases hstay : piece = [] ∨ piece = here
  · rw [enter_stay hstay, enter_stay hstay]
  by_cases hup : piece = up
  · subst hup
    obtain ⟨root, ups, names⟩ := n
    obtain rfl : root = .relative := hroot
    cases names with
    | cons last names =>
      -- The step up takes the last name away in both walks.
      obtain ⟨hlast, -⟩ := List.forall_mem_cons.1 h.names
      have hwalked : walked ⟨.relative, ups, last :: names⟩ =
          last :: walked ⟨.relative, ups, names⟩ := rfl
      have hback : ∀ k : Meaning, (k.enter last).enter up = k := fun k => by
        rw [enter_name hlast]
        rfl
      rw [hwalked, List.reverse_cons, List.foldl_append, List.foldl_cons, List.foldl_nil, hback]
      rfl
    | nil =>
      have hwalked : (Meaning.enter ⟨.relative, ups, []⟩ up).walked.reverse =
          (walked ⟨.relative, ups, []⟩).reverse ++ [up] := by
        change (List.replicate (ups + 1) up).reverse = (List.replicate ups up).reverse ++ [up]
        rw [List.reverse_replicate, List.reverse_replicate, List.replicate_succ']
      rw [hwalked, List.foldl_append]
      rfl
  · have hname : IsNamePiece piece :=
      ⟨fun h => hstay (.inl h), fun h => hstay (.inr h), hup, hpiece⟩
    have hwalked : (n.enter piece).walked.reverse = n.walked.reverse ++ [piece] := by
      rw [enter_name hname]
      simp [walked]
    rw [hwalked, List.foldl_append]
    rfl

/-- The pieces that are left of a walk from the working directory lead to the same place as all of
its pieces, from wherever they start. -/
theorem foldl_enter_walked {ps : List (List Char)} (hps : ∀ p ∈ ps, '/' ∉ p) (m : Meaning) :
    (ps.foldl enter ⟨.relative, 0, []⟩).walked.reverse.foldl enter m = ps.foldl enter m := by
  induction ps using List.reverseRecOn with
  | nil => rfl
  | append_singleton ps p ih =>
    obtain ⟨hps, hp⟩ := List.forall_mem_append.1 hps
    obtain ⟨hsound, hroot, -⟩ := (isSound_start .relative).foldl_enter hps
    rw [List.foldl_append, List.foldl_append, List.foldl_cons, List.foldl_nil, List.foldl_cons,
      List.foldl_nil, hsound.foldl_walked_enter hroot (by simpa using hp), ih hps]

/-- A text that starts with no separator leads to the same place as its normal form. -/
theorem foldl_enter_clean (hcs : cs.head? ≠ some '/') (m : Meaning) :
    (pieces (clean cs)).foldl enter m = (pieces cs).foldl enter m := by
  by_cases hnil : cs = []
  · rw [hnil]
    rfl
  have hpieces : ∀ p ∈ pieces cs, '/' ∉ p := fun _ => slash_not_mem_of_mem_pieces
  have hwalk := foldl_enter_walked hpieces m
  rw [← ofChars_of_head? hcs] at hwalk
  rw [clean_eq_chars hnil, ← hwalk]
  have hsound := isSound_ofChars cs
  have hroot : (ofChars cs).root = .relative :=
    (root_ofChars cs).trans (rootOf_chars_append .relative hcs)
  generalize ofChars cs = n at hsound hroot ⊢
  have hjoin := foldl_enter_joinPieces (m := m) fun p hp => (hsound.isPiece p hp).2
  rw [chars, hroot, Root.chars, List.nil_append]
  split
  · next hempty =>
    rw [hempty] at hjoin
    exact hjoin
  · exact hjoin

/-! ### Joining twice -/

theorem IsBelow.text_ofString (hs : IsBelow s) (hrelative : (ofString s).isAbsolute = false) :
    IsBelow (ofString s).text := by
  refine ⟨fun hempty => ?_, fun hslash => ?_, fun hback => ?_⟩
  · exact toList_ofString_ne_nil hs.1 (toList_text_eq_nil_iff.2 hempty)
  · rw [IsRooted.isAbsolute hslash] at hrelative
    cases hrelative
  · exact (isNormalized_ofString s).backslash_not_mem (List.mem_of_mem_head? hback)

/-- Joining two segments that start with no separator, one behind the other, is joining both at
once, and a segment that is not an absolute path may be normalized before it is joined. -/
theorem join_join (hb : b.IsNormalized) {q r : String} (hq : IsBelow q) (hr : IsBelow r) :
    (b.join q).join r = b.join (q ++ "/" ++ r) ∧
      ((ofString q).isAbsolute = false → (ofString q).resolveAgainst b = b.join q) := by
  refine ⟨?_, fun hrelative => ?_⟩
  · have hboth : unifySeparators (q ++ "/" ++ r).toList =
        unifySeparators q.toList ++ '/' :: unifySeparators r.toList := by
      simp [unifySeparators]
    refine ((hb.isNormalized_join q).isNormalized_join r).ext (hb.isNormalized_join _) ?_ ?_
    · rw [(hb.isNormalized_join q).meaning_join hr, hb.meaning_join hq,
        hb.meaning_join (hq.append r), hboth, pieces_append, List.foldl_append]
    · exact iff_of_false (text_join_ne_empty hr.1) (text_join_ne_empty (hq.append r).1)
  · have hbelow := hq.text_ofString hrelative
    have hplain := (isNormalized_ofString q).unifySeparators_eq
    rw [resolveAgainst, hrelative, if_neg Bool.false_ne_true]
    refine (hb.isNormalized_join _).ext (hb.isNormalized_join q) ?_ ?_
    · rw [hb.meaning_join hbelow, hb.meaning_join hq, hplain, toList_text_ofString,
        foldl_enter_clean hq.head?]
    · exact iff_of_false (text_join_ne_empty hbelow.1) (text_join_ne_empty hq.1)

/-- Steps up of the segments meet the names of the base, and each other. -/
theorem join_join_steps_up :
    IsNormalized ⟨"../srv"⟩ ∧ IsBelow "x/../.." ∧ IsBelow "..\\y" ∧
      (join ⟨"../srv"⟩ "x/../..").join "..\\y" = join ⟨"../srv"⟩ "x/../../..\\y" ∧
      (ofString "x/../..").isAbsolute = false ∧
      (ofString "x/../..").resolveAgainst ⟨"../srv"⟩ = join ⟨"../srv"⟩ "x/../.." := by
  have hb : IsNormalized ⟨"../srv"⟩ := by decide +kernel
  have hq : IsBelow "x/../.." := by decide +kernel
  have hr : IsBelow "..\\y" := by decide +kernel
  have hrelative : (ofString "x/../..").isAbsolute = false := by decide +kernel
  obtain ⟨hjoin, hresolve⟩ := join_join hb hq hr
  exact ⟨hb, hq, hr, hjoin, hrelative, hresolve hrelative⟩

end BlockEdit.Path
