import BlockEdit.Proofs.Manifest.Validity
import Mathlib.Order.Bounds.Basic

/-!
# Which job of a manifest is blamed

A manifest that is not valid has a first job with which its jobs up to there are not well formed.
The check finds that job, and says what is wrong with it (`Blames`). The targets it has seen are
those of the jobs in front, each with its number (`Records`), so a second job with a target is told
together with the only earlier one. `validate_judges` says this of both checks of a manifest.
-/

namespace BlockEdit.Manifest

variable {target : Job → Path} {front jobs : List Job} {job : Job} {e e' : ManifestError}
  {i i' : Nat} {seen : List (Path × Nat)}

/-- The jobs are complete, and their targets differ. -/
structure AreWellFormed (target : Job → Path) (jobs : List Job) : Prop where
  complete : ∀ job ∈ jobs, IsComplete job
  distinct : (jobs.map target).Nodup

/-- What is wrong with a job behind the jobs `front`. Its number is one more than theirs. A target
that was there before is the target of only one of them. -/
inductive Offends (target : Job → Path) (front : List Job) (job : Job) : ManifestError → Prop
  | pathMissing (hblank : Text.isBlankText job.path = true) :
      Offends target front job (.pathMissing (front.length + 1))
  | editsMissing (hpath : Text.isBlankText job.path = false) (hedits : job.edits = []) :
      Offends target front job (.editsMissing (front.length + 1) job.path)
  | duplicateTarget {k : Nat} (hcomplete : IsComplete job)
      (hfirst : ∀ i, (front.map target)[i]? = some (target job) ↔ i = k) :
      Offends target front job (.duplicateTarget (target job) (k + 1) (front.length + 1))

/-- The error is about the job at place `i`, the first one with which the jobs are not well
formed. -/
structure Blames (target : Job → Path) (jobs : List Job) (i : Nat) (e : ManifestError) : Prop where
  inside : i < jobs.length
  least : IsLeast {j | ¬ AreWellFormed target (jobs.take j)} (i + 1)
  offends : Offends target (jobs.take i) jobs[i] e

/-- A check of the jobs lets through what is well formed, and blames the first job that is not. -/
structure Judges (target : Job → Path) (jobs : List Job) (verdict : Except ManifestError Unit) :
    Prop where
  ok_iff : verdict = .ok () ↔ AreWellFormed target jobs
  error_iff : ∀ e, verdict = .error e ↔ ∃ i, Blames target jobs i e

/-! ### Well-formed jobs and the first that offends -/

theorem AreWellFormed.nil : AreWellFormed target [] := ⟨nofun, List.nodup_nil⟩

theorem AreWellFormed.take (h : AreWellFormed target jobs) (j : Nat) :
    AreWellFormed target (jobs.take j) where
  complete := fun job hjob => h.complete job (List.mem_of_mem_take hjob)
  distinct := h.distinct.sublist ((List.take_sublist j jobs).map target)

theorem areWellFormed_concat : AreWellFormed target (front ++ [job]) ↔
    AreWellFormed target front ∧ IsComplete job ∧ target job ∉ front.map target := by
  have hnodup : ((front ++ [job]).map target).Nodup ↔
      (front.map target).Nodup ∧ target job ∉ front.map target := by
    rw [List.map_append, List.map_singleton, List.nodup_append_comm, List.singleton_append,
      List.nodup_cons, and_comm]
  constructor
  · rintro ⟨hcomplete, hdistinct⟩
    obtain ⟨hfront, hjob⟩ := List.forall_mem_append.1 hcomplete
    exact ⟨⟨hfront, (hnodup.1 hdistinct).1⟩, hjob job (List.mem_singleton_self job),
      (hnodup.1 hdistinct).2⟩
  · rintro ⟨⟨hfront, hdistinct⟩, hjob, hfresh⟩
    exact ⟨List.forall_mem_append.2 ⟨hfront, List.forall_mem_singleton.2 hjob⟩,
      hnodup.2 ⟨hdistinct, hfresh⟩⟩

theorem Offends.not_areWellFormed (h : Offends target front job e) :
    ¬ AreWellFormed target (front ++ [job]) := by
  rw [areWellFormed_concat]
  rintro ⟨-, ⟨hpath, hedits⟩, hfresh⟩
  cases h with
  | pathMissing hblank => simp [hblank] at hpath
  | editsMissing _ hnone => exact hedits hnone
  | duplicateTarget _ hfirst => exact hfresh (List.mem_of_getElem? ((hfirst _).2 rfl))

/-- Only one thing is said to be wrong with a job. -/
theorem Offends.unique (h : Offends target front job e) (h' : Offends target front job e') :
    e = e' := by
  cases h with
  | pathMissing hblank =>
    cases h' with
    | pathMissing => rfl
    | editsMissing hpath => simp [hblank] at hpath
    | duplicateTarget hcomplete => simp [hblank, IsComplete] at hcomplete
  | editsMissing hpath hedits =>
    cases h' with
    | pathMissing hblank => simp [hpath] at hblank
    | editsMissing => rfl
    | duplicateTarget hcomplete => exact absurd hedits hcomplete.2
  | duplicateTarget hcomplete hfirst =>
    cases h' with
    | pathMissing hblank => simp [hblank, IsComplete] at hcomplete
    | editsMissing _ hedits => exact absurd hedits hcomplete.2
    | duplicateTarget _ hfirst' => rw [(hfirst' _).1 ((hfirst _).2 rfl)]

theorem Blames.of_offends {rest : List Job} (hfront : AreWellFormed target front)
    (h : Offends target front job e) : Blames target (front ++ job :: rest) front.length e where
  inside := by simp
  least := by
    have htake : (front ++ job :: rest).take (front.length + 1) = front ++ [job] := by
      rw [List.take_length_add_append, List.take_one, List.head?_cons, Option.toList_some]
    refine ⟨?_, fun j hj => ?_⟩
    · rw [Set.mem_ofPred_eq, htake]
      exact h.not_areWellFormed
    -- The jobs in front of it are well formed, and so are all that lead up to them.
    · by_contra hlt
      have hle : j ≤ front.length := by omega
      rw [Set.mem_ofPred_eq, List.take_append_of_le_length hle] at hj
      exact hj (hfront.take j)
  offends := by simpa using h

theorem Blames.unique (h : Blames target jobs i e) (h' : Blames target jobs i' e') : e = e' := by
  obtain rfl : i = i' := Nat.succ.inj (h.least.unique h'.least)
  exact h.offends.unique h'.offends

theorem Blames.not_areWellFormed (h : Blames target jobs i e) : ¬ AreWellFormed target jobs :=
  fun hwell => h.least.1 (hwell.take _)

/-! ### The targets that have been seen -/

/-- The seen targets are those of the jobs in front, with the numbers of the jobs. -/
def Records (target : Job → Path) (front : List Job) (seen : List (Path × Nat)) : Prop :=
  ∀ path first, seen.lookup path = some first ↔
    ∃ k, (front.map target)[k]? = some path ∧ first = k + 1

theorem records_nil : Records target [] [] := by simp [Records]

theorem Records.lookup_eq_none_iff (h : Records target front seen) {path : Path} :
    seen.lookup path = none ↔ path ∉ front.map target := by
  rw [Option.eq_none_iff_forall_ne_some]
  constructor
  · intro hnone hmem
    obtain ⟨k, hk⟩ := List.mem_iff_getElem?.1 hmem
    exact hnone (k + 1) ((h _ _).2 ⟨k, hk, rfl⟩)
  · intro hfresh first hfirst
    obtain ⟨k, hk, -⟩ := (h _ _).1 hfirst
    exact hfresh (List.mem_of_getElem? hk)

theorem Records.concat (h : Records target front seen) (hfresh : target job ∉ front.map target) :
    Records target (front ++ [job]) ((target job, front.length + 1) :: seen) := by
  have hplace : ∀ path k, ((front ++ [job]).map target)[k]? = some path ↔
      (front.map target)[k]? = some path ∨ k = front.length ∧ target job = path := by
    intro path k
    rw [List.map_append, List.map_singleton, List.getElem?_append, List.length_map]
    split
    · next hlt => simp [Nat.ne_of_lt hlt]
    · next hge => grind
  intro path first
  simp only [hplace]
  rw [List.lookup_cons]
  by_cases hpath : path = target job
  · subst hpath
    rw [beq_self_eq_true]
    constructor
    · rintro ⟨⟩
      exact ⟨front.length, .inr ⟨rfl, rfl⟩, rfl⟩
    · rintro ⟨k, hk | ⟨rfl, -⟩, rfl⟩
      · exact absurd (List.mem_of_getElem? hk) hfresh
      · rfl
  · rw [beq_eq_false_iff_ne.2 hpath]
    simp only [h path first, Ne.symm hpath, and_false, or_false]

/-- What is seen at the target of a job is the one earlier job that has it. -/
theorem Records.offends {first : Nat} (h : Records target front seen) (hcomplete : IsComplete job)
    (hfirst : seen.lookup (target job) = some first) :
    Offends target front job (.duplicateTarget (target job) first (front.length + 1)) := by
  obtain ⟨k, hk, rfl⟩ := (h _ _).1 hfirst
  refine .duplicateTarget hcomplete fun i => ⟨fun hi => ?_, fun hi => hi ▸ hk⟩
  have hi' : seen.lookup (target job) = some (i + 1) := (h _ _).2 ⟨i, hi, rfl⟩
  exact Nat.succ.inj (Option.some.inj (hi'.symm.trans hfirst))

/-! ### The check -/

/-- What the check does with the next job. -/
theorem checkFrom_cons (h : Records target front seen) (job : Job) (jobs : List Job) :
    (∃ e, Offends target front job e ∧
      checkFrom target (front.length + 1) seen (job :: jobs) = .error e) ∨
    IsComplete job ∧ target job ∉ front.map target ∧
      checkFrom target (front.length + 1) seen (job :: jobs) =
        checkFrom target (front.length + 2) ((target job, front.length + 1) :: seen) jobs := by
  rw [checkFrom]
  by_cases hblank : Text.isBlankText job.path = true
  · rw [if_pos hblank]
    exact .inl ⟨_, .pathMissing hblank, rfl⟩
  rw [if_neg hblank]
  have hpath : Text.isBlankText job.path = false := Bool.eq_false_of_not_eq_true hblank
  by_cases hedits : job.edits.isEmpty = true
  · rw [if_pos hedits]
    exact .inl ⟨_, .editsMissing hpath (List.isEmpty_iff.1 hedits), rfl⟩
  rw [if_neg hedits]
  have hcomplete : IsComplete job := ⟨hpath, fun hnone => hedits (List.isEmpty_iff.2 hnone)⟩
  cases hfirst : seen.lookup (target job) with
  | some first => exact .inl ⟨_, h.offends hcomplete hfirst, rfl⟩
  | none => exact .inr ⟨hcomplete, h.lookup_eq_none_iff.1 hfirst, rfl⟩

theorem checkFrom_eq_error (hfront : AreWellFormed target front) (hseen : Records target front seen)
    (h : checkFrom target (front.length + 1) seen jobs = .error e) :
    ∃ i, Blames target (front ++ jobs) i e := by
  induction jobs generalizing front seen with
  | nil => cases h
  | cons job jobs ih =>
    obtain ⟨e', hoffends, herror⟩ | ⟨hcomplete, hfresh, hnext⟩ := checkFrom_cons hseen job jobs
    · obtain rfl : e' = e := Except.error.inj (herror.symm.trans h)
      exact ⟨front.length, .of_offends hfront hoffends⟩
    · rw [hnext] at h
      have hfront' := areWellFormed_concat.2 ⟨hfront, hcomplete, hfresh⟩
      have hblames := ih hfront' (hseen.concat hfresh) (by rwa [List.length_append])
      rwa [List.append_assoc, List.singleton_append] at hblames

theorem checkFrom_judges (target : Job → Path) (jobs : List Job) :
    Judges target jobs (checkFrom target 1 [] jobs) := by
  have hok : checkFrom target 1 [] jobs = .ok () ↔ AreWellFormed target jobs := by
    rw [checkFrom_eq_ok_iff]
    exact ⟨fun h => ⟨fun job hjob => (h.1 job hjob).1, h.2⟩,
      fun h => ⟨fun job hjob => ⟨h.complete job hjob, by simp⟩, h.distinct⟩⟩
  have herror : ∀ e, checkFrom target 1 [] jobs = .error e → ∃ i, Blames target jobs i e :=
    fun e h => checkFrom_eq_error .nil records_nil h
  refine ⟨hok, fun e => ⟨herror e, ?_⟩⟩
  rintro ⟨i, hblames⟩
  cases hverdict : checkFrom target 1 [] jobs with
  | ok => exact absurd (hok.1 hverdict) hblames.not_areWellFormed
  | error e' =>
    obtain ⟨i', hblames'⟩ := herror e' hverdict
    rw [hblames'.unique hblames]

/-- Both checks of a manifest judge its jobs, by their targets as seen from the root and by their
paths. What is valid under any root is valid by itself. -/
theorem validate_judges (manifest : Manifest) (root : Path) :
    Judges (·.target root) manifest.jobs (manifest.validateFrom root) ∧
      Judges (fun job => .ofString job.path) manifest.jobs manifest.validate ∧
      (manifest.validateFrom root = .ok () → manifest.validate = .ok ()) := by
  have hfrom := checkFrom_judges (·.target root) manifest.jobs
  have hself := checkFrom_judges (fun job => .ofString job.path) manifest.jobs
  refine ⟨hfrom, hself, fun hok => hself.ok_iff.2 ?_⟩
  obtain ⟨hcomplete, hdistinct⟩ := hfrom.ok_iff.1 hok
  -- The target under the root is that of the normalized path, resolved.
  refine ⟨hcomplete, List.Nodup.of_map (·.resolveAgainst root) ?_⟩
  simpa only [List.map_map, Function.comp_def, Job.target] using hdistinct

/-- Two files that are different from everywhere, and one file in two spellings that are the same
only as seen from the root. -/
theorem validate_judges_two_spellings :
    let root : Path := .ofString "/root"
    let manifest (second : String) : Manifest :=
      ⟨.failFast, ["a", second].map fun path => ⟨path, [.replaceSpan ⟨0, 0⟩ ""]⟩⟩
    ((manifest "/a").validateFrom root = .ok () ∧ (manifest "/a").validate = .ok ()) ∧
      (manifest "/root/./a").validate = .ok () ∧
      ∃ i, Blames (·.target root) (manifest "/root/./a").jobs i
        (.duplicateTarget (.ofString "/root/a") 1 2) := by
  intro root manifest
  have hok : (manifest "/a").validateFrom root = .ok () := by decide +kernel
  have herror : (manifest "/root/./a").validateFrom root =
      .error (.duplicateTarget (.ofString "/root/a") 1 2) := by decide +kernel
  exact ⟨⟨hok, (validate_judges (manifest "/a") root).2.2 hok⟩, by decide +kernel,
    ((validate_judges (manifest "/root/./a") root).1.error_iff _).1 herror⟩

end BlockEdit.Manifest
