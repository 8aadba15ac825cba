import BlockEdit.Proofs.Path.Joining

/-!
# The root of a joined path

A joined path has the root of its base, however many separators the segment starts with, as long as
there is a name in the base. Behind a base that is a root alone, the separators of the segment are
counted together with those of the root, and it takes exactly two of them to name a share: so `/`
turns into `//` behind one more separator, and `//` turns into `/` behind any number of them
(`MakesOtherRoot`). These are the only cases, and the only ones in which it makes a difference
whether the separators are there (`root_join`).
-/

namespace BlockEdit.Path

open Meaning

variable {b path : Path} {cs : List Char} {s : String}

/-! ### Separators at the start of a segment -/

/-- Separators are written in two ways. -/
def isSeparator (c : Char) : Bool := c = '/' ∨ c = '\\'

/-- The number of separators that a segment starts with. -/
def leading (s : String) : Nat := (s.toList.takeWhile isSeparator).length

/-- What stands behind the separators that a segment starts with. -/
def withoutLeading (s : String) : String := String.ofList (s.toList.dropWhile isSeparator)

/-- The base is a root alone, and the separators of the segment make the other root of it. -/
def MakesOtherRoot (b : Path) (s : String) : Prop :=
  b.text = "/" ∧ leading s = 1 ∨ b.text = "//" ∧ leading s ≠ 0

instance (b : Path) (s : String) : Decidable (MakesOtherRoot b s) :=
  inferInstanceAs (Decidable (_ ∨ _))

theorem isSeparator_eq (c : Char) :
    isSeparator c = decide ((if c = '\\' then '/' else c) = '/') := by
  by_cases hback : c = '\\' <;> simp [isSeparator, hback]

theorem isSeparator_comp :
    isSeparator = (fun c => decide (c = '/')) ∘ fun c => if c = '\\' then '/' else c :=
  funext isSeparator_eq

theorem slashes_unifySeparators (s : String) : slashes (unifySeparators s.toList) = leading s := by
  rw [slashes, unifySeparators, List.takeWhile_map, List.length_map, leading, isSeparator_comp]

theorem unifySeparators_withoutLeading (s : String) :
    unifySeparators (withoutLeading s).toList = (unifySeparators s.toList).dropWhile (· = '/') := by
  rw [withoutLeading, String.toList_ofList, unifySeparators, unifySeparators, List.dropWhile_map,
    isSeparator_comp]

theorem slashes_dropWhile (cs : List Char) : slashes (cs.dropWhile (· = '/')) = 0 :=
  slashes_eq_zero fun h => by
    have hhead := List.head?_dropWhile_not (· = '/') cs
    rw [h] at hhead
    cases hhead

/-- The separators at the start of a text lead nowhere. -/
theorem foldl_enter_dropWhile (cs : List Char) (m : Meaning) :
    (pieces (cs.dropWhile (· = '/'))).foldl enter m = (pieces cs).foldl enter m := by
  induction cs with
  | nil => rfl
  | cons c cs ih =>
    by_cases hc : c = '/'
    · subst hc
      exact ih
    · rw [List.dropWhile_cons_of_neg (by simpa using hc)]

/-! ### Roots -/

theorem rootOf_clean (cs : List Char) : rootOf (clean cs) = rootOf cs := by
  rw [← root_ofChars, ofChars_clean, root_ofChars]

/-- A path in normal form that is made of separators is a root. -/
theorem IsNormalized.eq_root_of_all (hb : b.IsNormalized) (hne : b.text ≠ "")
    (hall : b.text.toList.all (· = '/')) : b.text = "/" ∨ b.text = "//" := by
  have hall : ∀ c ∈ b.text.toList, c = '/' := by simpa using hall
  have hcs : b.text.toList ≠ [] := mt toList_text_eq_nil_iff.1 hne
  have hnormal : IsNormal b.text.toList := by
    rw [← hb.clean_eq]
    exact isNormal_clean hb.backslash_not_mem
  have hlast : b.text.toList.getLast? = some '/' := by
    rw [List.getLast?_eq_some_getLast hcs, hall _ (List.getLast_mem hcs)]
  exact (hnormal.trailing hlast).imp (String.toList_inj.1 ·) (String.toList_inj.1 ·)

/-- It takes exactly two separators to name a share. -/
theorem rootOfSlashes_of_ne {n : Nat} (hzero : n ≠ 0) (htwo : n ≠ 2) :
    rootOfSlashes n = .slash := by
  obtain _ | _ | _ | n := n
  · exact absurd rfl hzero
  · rfl
  · exact absurd rfl htwo
  · rfl

theorem root_eq (path : Path) : path.root = rootOfSlashes (slashes path.text.toList) :=
  (rootOfSlashes_eq _).symm

/-- The separators of the segment count where the base has nothing else. -/
theorem IsNormalized.root_join_eq (hb : b.IsNormalized) (hne : b.text ≠ "") (s : String) :
    (b.join s).root = rootOfSlashes
      (slashes b.text.toList + if b.text.toList.all (· = '/') then leading s else 0) := by
  rw [root, hb.toList_text_join hne, rootOf_clean, ← rootOfSlashes_eq, ← slashes_unifySeparators,
    ← slashes_seam_append (mt toList_text_eq_nil_iff.1 hne), slashes]

theorem IsNormalized.root_join_of_not (hb : b.IsNormalized) (hne : b.text ≠ "")
    (h : ¬MakesOtherRoot b s) : (b.join s).root = b.root := by
  rw [hb.root_join_eq hne, root_eq]
  split
  · next hall =>
    obtain ⟨hslash, hshare⟩ := not_or.1 h
    obtain hroot | hroot := hb.eq_root_of_all hne hall
    · have hone : leading s ≠ 1 := fun hone => hslash ⟨hroot, hone⟩
      have hslashes : slashes "/".toList = 1 := rfl
      rw [hroot, hslashes, rootOfSlashes_of_ne (by omega) (by omega),
        rootOfSlashes_of_ne (by decide) (by decide)]
    · have hnone : leading s = 0 := not_not.1 fun hmore => hshare ⟨hroot, hmore⟩
      rw [hnone, Nat.add_zero]
  · rw [Nat.add_zero]

theorem IsNormalized.root_join_of (hb : b.IsNormalized) (h : MakesOtherRoot b s) :
    b.root = .slash ∧ (b.join s).root = .share ∨ b.root = .share ∧ (b.join s).root = .slash := by
  obtain ⟨hroot, hone⟩ | ⟨hroot, hmore⟩ := h
  · left
    have hall : "/".toList.all (· = '/') := rfl
    rw [hb.root_join_eq (by simp [hroot]), root_eq, hroot, if_pos hall, hone]
    exact ⟨rfl, rfl⟩
  · right
    have hall : "//".toList.all (· = '/') := rfl
    have hslashes : slashes "//".toList = 2 := rfl
    rw [hb.root_join_eq (by simp [hroot]), root_eq, hroot, if_pos hall, hslashes]
    exact ⟨rfl, rootOfSlashes_of_ne (by omega) (by omega)⟩

/-! ### Segments with and without separators at the start -/

theorem leading_withoutLeading (s : String) : leading (withoutLeading s) = 0 := by
  rw [← slashes_unifySeparators, unifySeparators_withoutLeading, slashes_dropWhile]

theorem not_makesOtherRoot (h : leading s = 0) : ¬MakesOtherRoot b s := by
  rintro (⟨-, hone⟩ | ⟨-, hmore⟩)
  · rw [h] at hone
    cases hone
  · exact hmore h

theorem IsNormalized.meaning_join_eq (hb : b.IsNormalized) (hne : b.text ≠ "") (s : String) :
    (b.join s).meaning = (pieces (unifySeparators s.toList)).foldl enter
      ((pieces b.text.toList).foldl enter ⟨(b.join s).root, 0, []⟩) := by
  rw [root, meaning, hb.toList_text_join hne, rootOf_clean, ofChars_clean, ofChars,
    rootOfSlashes_eq, foldl_enter_seam]

/-- The separators at the start of a segment make a difference to the root alone. -/
theorem IsNormalized.join_withoutLeading_iff (hb : b.IsNormalized) (hne : b.text ≠ "")
    (s : String) :
    b.join (withoutLeading s) = b.join s ↔ (b.join (withoutLeading s)).root = (b.join s).root := by
  refine ⟨fun h => by rw [h], fun h => ?_⟩
  refine (hb.isNormalized_join _).ext (hb.isNormalized_join _) ?_ ?_
  · rw [hb.meaning_join_eq hne, hb.meaning_join_eq hne, h, unifySeparators_withoutLeading,
      foldl_enter_dropWhile]
  · exact iff_of_false (text_join_ne_empty_of_base hne) (text_join_ne_empty_of_base hne)

/-- A path that is not absolute starts with no separator. -/
theorem IsNormalized.leading_eq_zero (h : path.IsNormalized) (hrelative : path.isAbsolute = false) :
    leading path.text = 0 := by
  rw [← slashes_unifySeparators, h.unifySeparators_eq]
  refine slashes_eq_zero fun hslash => ?_
  rw [IsRooted.isAbsolute hslash] at hrelative
  cases hrelative

/-- Joining keeps the root of the base and skips the separators at the start of the segment, unless
base and segment together make the other root. This does not happen where a path is resolved. -/
theorem root_join (hb : b.IsNormalized) (hne : b.text ≠ "") (s : String) :
    (¬MakesOtherRoot b s →
      (b.join s).root = b.root ∧ b.join (withoutLeading s) = b.join s) ∧
    (MakesOtherRoot b s →
      (b.root = .slash ∧ (b.join s).root = .share ∨ b.root = .share ∧ (b.join s).root = .slash) ∧
        b.join (withoutLeading s) ≠ b.join s) ∧
    ∀ path : Path, path.IsNormalized → path.isAbsolute = false →
      (path.resolveAgainst b).root = b.root := by
  have hwithout : (b.join (withoutLeading s)).root = b.root :=
    hb.root_join_of_not hne (not_makesOtherRoot (leading_withoutLeading s))
  refine ⟨fun h => ?_, fun h => ?_, fun path hpath hrelative => ?_⟩
  · have hroot := hb.root_join_of_not hne h
    exact ⟨hroot, (hb.join_withoutLeading_iff hne s).2 (hwithout.trans hroot.symm)⟩
  · have hroot := hb.root_join_of h
    refine ⟨hroot, fun hsame => ?_⟩
    rw [← hsame, hwithout] at hroot
    obtain ⟨hslash, hshare⟩ | ⟨hshare, hslash⟩ := hroot <;> rw [hslash] at hshare <;> cases hshare
  · rw [resolveAgainst, hrelative, if_neg Bool.false_ne_true]
    exact hb.root_join_of_not hne (not_makesOtherRoot (hpath.leading_eq_zero hrelative))

/-- Behind a base with a name, behind `/` with more than one separator, and behind `//`. -/
theorem root_join_share :
    IsNormalized ⟨"//srv"⟩ ∧ ¬MakesOtherRoot ⟨"//srv"⟩ "\\x" ∧
      (join ⟨"//srv"⟩ "\\x").root = .share ∧ join ⟨"//srv"⟩ "x" = join ⟨"//srv"⟩ "\\x" := by
  have hb : IsNormalized ⟨"//srv"⟩ := by decide +kernel
  have hs : ¬MakesOtherRoot ⟨"//srv"⟩ "\\x" := by decide +kernel
  obtain ⟨hroot, hjoin⟩ := (root_join hb (by decide) "\\x").1 hs
  exact ⟨hb, hs, hroot, hjoin⟩

/-- One separator at the start of the segment makes a share of the root directory, and the root
directory of what was to name a share. -/
theorem root_lost_in_join :
    (IsNormalized ⟨"/"⟩ ∧ root ⟨"/"⟩ = .slash ∧ join ⟨"/"⟩ "/x" = ⟨"//x"⟩ ∧
      (join ⟨"/"⟩ "/x").root = .share ∧ withoutLeading "/x" = "x" ∧ join ⟨"/"⟩ "x" = ⟨"/x"⟩) ∧
    (IsNormalized ⟨"//"⟩ ∧ root ⟨"//"⟩ = .share ∧ join ⟨"//"⟩ "/x" = ⟨"/x"⟩ ∧
      (join ⟨"//"⟩ "/x").root = .slash ∧ join ⟨"//"⟩ "x" = ⟨"//x"⟩) := by
  decide +kernel

end BlockEdit.Path
