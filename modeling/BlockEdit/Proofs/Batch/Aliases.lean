import BlockEdit.Batch.Run
import BlockEdit.Proofs.Manifest.Validity
import BlockEdit.Proofs.Store.LinkFree

/-!
# Two jobs for one file

The targets of a valid manifest are different texts, and yet two of them can lead to one file: a
share mark in front of a path makes no difference to where it leads, and a path that starts with a
drive letter leads on from the working directory (`IsAlias`). In a store without links there are no
other ways (`location_eq_iff_isAlias`).
-/

namespace BlockEdit

open Store

/-- A path from the root leads where `a` leads for somebody in the directory `here`, because `a` is
that path with a share mark, or because it leads on from `here`. -/
def IsAlias (here : Location) (a b : Path) : Prop :=
  b.IsRooted ∧ (a.text = "/" ++ b.text ∨
    ¬a.IsRooted ∧ names b.text.toList = here ++ names a.text.toList)

instance (here : Location) (a b : Path) : Decidable (IsAlias here a b) :=
  inferInstanceAs (Decidable (_ ∧ (_ ∨ _ ∧ _)))

section Plain

variable {here : Location} {a b : Path} {r r' : Path.Root} {ps qs : List (List Char)}

theorem placeOf_of_isPlain (ha : a.IsPlain r ps) :
    placeOf here a.text = (if r = .relative then here else []) ++ ps.map String.ofList := by
  rw [placeOf, origin_of_isPlain ha, names_of_isPlain ha]

theorem map_ofList_inj : ps.map String.ofList = qs.map String.ofList ↔ ps = qs := by
  refine List.map_inj_right fun p q h => ?_
  simpa using congrArg String.toList h

theorem isPlain_inj (ha : a.IsPlain r ps) (hb : b.IsPlain r' qs) (hr : r = r') (hps : ps = qs) :
    a = b := by
  subst hr hps
  have : a.text = b.text := String.toList_inj.1 (ha.1.trans hb.1.symm)
  cases a
  cases b
  exact congrArg Path.mk this

/-- A path with a share mark in front of it is one that was rooted without the mark. -/
theorem eq_share_iff (ha : a.IsPlain r ps) (hb : b.IsPlain r' qs) (hr' : r' ≠ .relative) :
    a.text = "/" ++ b.text ↔ r = .share ∧ r' = .slash ∧ ps = qs := by
  have hhead : ∀ cs, Path.joinPieces ps ≠ '/' :: cs := fun cs h =>
    Path.head?_joinPieces_ne_slash ha.2 (by rw [h, List.head?_cons])
  have hinj : Path.joinPieces ps = Path.joinPieces qs ↔ ps = qs := by
    refine ⟨fun h => ?_, congrArg _⟩
    rw [← Path.named_joinPieces fun p hp => ⟨(ha.2 p hp).1, (ha.2 p hp).2.2.2⟩, h,
      Path.named_joinPieces fun p hp => ⟨(hb.2 p hp).1, (hb.2 p hp).2.2.2⟩]
  rw [← String.toList_inj, String.toList_append, ha.1, hb.1]
  cases r' with
  | relative => exact absurd rfl hr'
  | slash => cases r <;> simp [Path.Root.chars, hhead, hinj]
  | share => cases r <;> simp [Path.Root.chars, hhead]

/-- Different paths without steps up spell out one place only if one is an alias of the other. -/
theorem placeOf_eq_iff_isAlias (ha : a.IsPlain r ps) (hb : b.IsPlain r' qs) (hne : a ≠ b) :
    placeOf here a.text = placeOf here b.text ↔ IsAlias here a b ∨ IsAlias here b a := by
  rw [placeOf_of_isPlain ha, placeOf_of_isPlain hb, IsAlias, IsAlias, Path.isRooted_iff ha,
    Path.isRooted_iff hb, names_of_isPlain ha, names_of_isPlain hb]
  by_cases hr : r = .relative
  · by_cases hr' : r' = .relative
    · have hps : ps ≠ qs := fun h => hne (isPlain_inj ha hb (hr.trans hr'.symm) h)
      simp [hr, hr', map_ofList_inj, hps]
    · have hshare : a.text ≠ "/" ++ b.text := fun h => by
        have := ((eq_share_iff ha hb hr').1 h).1
        simp [hr] at this
      simp [hr, hr', hshare, eq_comm]
  · by_cases hr' : r' = .relative
    · have hshare : b.text ≠ "/" ++ a.text := fun h => by
        have := ((eq_share_iff hb ha hr).1 h).1
        simp [hr'] at this
      simp [hr, hr', hshare]
    · rw [eq_share_iff ha hb hr', eq_share_iff hb ha hr]
      simp only [hr, hr', if_false, List.nil_append, map_ofList_inj, ne_eq, not_false_eq_true,
        true_and, not_true_eq_false, false_and, or_false]
      -- With the same names the roots differ, so one of them is the mark of a share.
      have hroots : ps = qs → r ≠ r' := fun h heq => hne (isPlain_inj ha hb heq h)
      constructor
      · intro h
        have := hroots h
        cases r <;> cases r' <;> simp_all
      · rintro (⟨-, -, h⟩ | ⟨-, -, h⟩)
        · exact h
        · exact h.symm

/-- In the directory `w`, a path with a drive letter leads to a file below `/w`. -/
example : IsAlias ["w"] (.ofString "C:\\x") (.ofString "/w/C:/x") := by decide +kernel

end Plain

/-! ### Jobs make no link -/

theorem Store.addsNoLink_editFile (s : Store) (options : EditOptions) (path : Path)
    (edits : List Edit) : AddsNoLink s (s.editFile options path edits).1 := by
  unfold editFile
  split
  · exact .refl s
  split
  · exact .refl s
  next new _ =>
  simp only
  split
  · have hwrite := addsNoLink_write s options.process path new.toUTF8
    split
    · next s' e heq => rwa [heq] at hwrite
    · next s' heq => rwa [heq] at hwrite
  · exact .refl s

namespace Batch

theorem addsNoLink_runJob (b : Batch) (stopped : Bool) (n : Nat) (s : Store) (job : Job) :
    AddsNoLink s (b.runJob stopped n s job).1 := by
  have hedit := addsNoLink_editFile s b.options (job.target b.root) job.edits
  cases stopped with
  | true => exact .refl s
  | false =>
    cases heq : s.editFile b.options (job.target b.root) job.edits with
    | mk s' result =>
      rw [heq] at hedit
      simpa only [runJob, heq, Bool.false_eq_true, if_false] using hedit

theorem addsNoLink_runFrom (b : Batch) (stopped : Bool) (n : Nat) (s : Store) (jobs : List Job) :
    AddsNoLink s (b.runFrom stopped n s jobs).1 := by
  induction jobs generalizing stopped n s with
  | nil => exact .refl s
  | cons job jobs ih =>
    have hjob := addsNoLink_runJob b stopped n s job
    cases heq : b.runJob stopped n s job with
    | mk s' report =>
      rw [heq] at hjob
      simp only [runFrom, heq]
      exact hjob.trans (ih _ _ _)

/-- Running jobs makes no link. -/
theorem addsNoLink_run (b : Batch) (s : Store) (jobs : List Job) : AddsNoLink s (b.run s jobs).1 :=
  addsNoLink_runFrom b false 1 s jobs

/-! ### The targets of jobs -/

section Targets

variable {b : Batch} {manifest : Manifest} {s : Store} {i j m n : Nat} {job job' : Job}
  {l l' : Location}

theorem exists_isPlain_target (hroot : b.root.IsRooted)
    (hvalid : manifest.validateFrom b.root = .ok ()) (hjob : job ∈ manifest.jobs) :
    ∃ root names, (job.target b.root).IsPlain root names := by
  obtain ⟨hblank, -⟩ := (Manifest.validateFrom_eq_ok_iff.1 hvalid).1 job hjob
  refine Path.exists_isPlain_resolveAgainst hroot fun hempty => ?_
  rw [hempty] at hblank
  exact absurd hblank (by decide)

theorem target_ne (hvalid : manifest.validateFrom b.root = .ok ())
    (hjob : manifest.jobs[i]? = some job) (hjob' : manifest.jobs[j]? = some job') (hne : i ≠ j) :
    job.target b.root ≠ job'.target b.root := by
  intro heq
  have hnodup := (Manifest.validateFrom_eq_ok_iff.1 hvalid).2
  have hlength : i < (manifest.jobs.map (·.target b.root)).length := by
    rw [List.length_map]
    exact (List.getElem?_eq_some_iff.1 hjob).1
  refine hne ((List.getElem?_inj hlength hnodup).1 ?_)
  rw [List.getElem?_map, List.getElem?_map, hjob, hjob', Option.map_some, Option.map_some, heq]

/-- Whenever the targets of two jobs lead anywhere while the jobs of a valid manifest are run, they
lead to one place if one is an alias of the other, and to different places otherwise. -/
theorem location_eq_iff_isAlias (hroot : b.root.IsRooted)
    (hvalid : manifest.validateFrom b.root = .ok ()) (hs : s.LinkFree)
    (hjob : manifest.jobs[i]? = some job) (hjob' : manifest.jobs[j]? = some job') (hne : i ≠ j)
    (hl : (b.run s (manifest.jobs.take m)).1.locate? true (job.target b.root).text = .ok l)
    (hl' : (b.run s (manifest.jobs.take n)).1.locate? true (job'.target b.root).text = .ok l') :
    l = l' ↔ IsAlias s.workingDirectory (job.target b.root) (job'.target b.root) ∨
      IsAlias s.workingDirectory (job'.target b.root) (job.target b.root) := by
  obtain ⟨r, ps, hplain⟩ := exists_isPlain_target hroot hvalid (List.mem_of_getElem? hjob)
  obtain ⟨r', ps', hplain'⟩ := exists_isPlain_target hroot hvalid (List.mem_of_getElem? hjob')
  have hrun := addsNoLink_run b s (manifest.jobs.take m)
  have hrun' := addsNoLink_run b s (manifest.jobs.take n)
  rw [locate?_of_isPlain (hrun.linkFree hs) hplain hl,
    locate?_of_isPlain (hrun'.linkFree hs) hplain' hl', hrun.workingDirectory,
    hrun'.workingDirectory]
  exact placeOf_eq_iff_isAlias hplain hplain' (target_ne hvalid hjob hjob' hne)

/-- Before and after the first of two jobs for different files, their targets lead to the places of
these files. -/
theorem location_eq_iff_isAlias_two_files :
    let s := (((Store.root []).put ["w"] .directory).put ["w", "a"]
      (.file ⟨"x".toUTF8, 0o600, false⟩)).put ["w", "b"] (.file ⟨"x".toUTF8, 0o600, false⟩)
    let b : Batch := ⟨⟨"/w"⟩, .failFast, ⟨7, false⟩⟩
    let job : Job := ⟨"a", [.insertBefore "x" "y"]⟩
    let job' : Job := ⟨"./c/../b", [.insertBefore "x" "y"]⟩
    let manifest : Manifest := ⟨.failFast, [job, job']⟩
    manifest.validateFrom b.root = .ok () ∧
      (b.run s (manifest.jobs.take 0)).1.locate? true (job.target b.root).text = .ok ["w", "a"] ∧
      (b.run s (manifest.jobs.take 1)).1.locate? true (job'.target b.root).text = .ok ["w", "b"] ∧
      ¬(IsAlias s.workingDirectory (job.target b.root) (job'.target b.root) ∨
        IsAlias s.workingDirectory (job'.target b.root) (job.target b.root)) := by
  intro s b job job' manifest
  have hroot : b.root.IsRooted := by decide
  have hvalid : manifest.validateFrom b.root = .ok () := by decide +kernel
  have hmade : AddsNoLink (.root []) s :=
    ((addsNoLink_put (by simp)).trans (addsNoLink_put (by simp))).trans (addsNoLink_put (by simp))
  have hs : s.LinkFree := hmade.linkFree (linkFree_root [])
  have hl : (b.run s (manifest.jobs.take 0)).1.locate? true (job.target b.root).text =
      .ok ["w", "a"] := by decide +kernel
  have hl' : (b.run s (manifest.jobs.take 1)).1.locate? true (job'.target b.root).text =
      .ok ["w", "b"] := by decide +kernel
  refine ⟨hvalid, hl, hl', fun halias => ?_⟩
  have heq := (location_eq_iff_isAlias (i := 0) (j := 1) hroot hvalid hs rfl rfl (by decide) hl
    hl').2 halias
  exact absurd heq (by decide)

/-- A share mark in front of a path hides that the path is the target of another job: the manifest
is valid, and the second job goes on with what the first one has written. -/
theorem same_file_of_share_mark :
    let s := ((Store.root []).put ["w"] .directory).put ["w", "a"]
      (.file ⟨"x".toUTF8, 0o600, false⟩)
    let b : Batch := ⟨⟨"/w"⟩, .failFast, ⟨7, false⟩⟩
    let job : Job := ⟨"/w/a", [.insertBefore "x" "y"]⟩
    let job' : Job := ⟨"//w/a", [.insertBefore "y" "z"]⟩
    let manifest : Manifest := ⟨.failFast, [job, job']⟩
    s.LinkFree ∧ manifest.validateFrom b.root = .ok () ∧
      (b.run s (manifest.jobs.take 0)).1.locate? true (job.target b.root).text = .ok ["w", "a"] ∧
      (b.run s (manifest.jobs.take 1)).1.locate? true (job'.target b.root).text = .ok ["w", "a"] ∧
      (b.runManifest s manifest).1.readText (job.target b.root) = .ok "zyx" := by
  intro s b job job' manifest
  have hmade : AddsNoLink (.root []) s := (addsNoLink_put (by simp)).trans (addsNoLink_put (by simp))
  exact ⟨hmade.linkFree (linkFree_root []), by decide +kernel⟩

end Targets

end Batch

end BlockEdit
