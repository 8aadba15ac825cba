import BlockEdit.Manifest.Basic
import Mathlib.Data.List.Nodup

/-!
# Which manifests are valid

`checkFrom_eq_ok_iff` says which jobs pass the check of a manifest: each has a path and edits, and
their targets are pairwise different texts.
-/

namespace BlockEdit.Manifest

variable {target : Job → Path} {n : Nat} {seen : List (Path × Nat)} {job : Job} {jobs : List Job}

/-- A job with a path and with edits. -/
def IsComplete (job : Job) : Prop := Text.isBlankText job.path = false ∧ job.edits ≠ []

theorem lookup_eq_none_iff {path : Path} : seen.lookup path = none ↔ path ∉ seen.map Prod.fst := by
  rw [List.lookup_eq_none_iff]
  constructor
  · intro h hmem
    obtain ⟨p, hp, rfl⟩ := List.mem_map.1 hmem
    simpa using h p hp
  · intro h p hp
    have hne : path ≠ p.1 := fun heq => h (heq ▸ List.mem_map_of_mem hp)
    simpa using hne

/-- What the check of a job that passes leaves to be checked. -/
theorem checkFrom_cons_eq_ok_iff :
    checkFrom target n seen (job :: jobs) = .ok () ↔
      IsComplete job ∧ target job ∉ seen.map Prod.fst ∧
        checkFrom target (n + 1) ((target job, n) :: seen) jobs = .ok () := by
  rw [checkFrom, ← lookup_eq_none_iff, IsComplete]
  by_cases hblank : Text.isBlankText job.path = true
  · rw [if_pos hblank]
    simp [hblank]
  rw [if_neg hblank]
  by_cases hedits : job.edits.isEmpty = true
  · rw [if_pos hedits]
    simp [List.isEmpty_iff.1 hedits]
  rw [if_neg hedits]
  cases seen.lookup (target job) with
  | some first => simp
  | none =>
    have hne : job.edits ≠ [] := fun h => hedits (List.isEmpty_iff.2 h)
    simp [hblank, hne]

theorem checkFrom_eq_ok_iff :
    checkFrom target n seen jobs = .ok () ↔
      (∀ job ∈ jobs, IsComplete job ∧ target job ∉ seen.map Prod.fst) ∧
        (jobs.map target).Nodup := by
  induction jobs generalizing n seen with
  | nil => simp [checkFrom]
  | cons job jobs ih =>
    rw [checkFrom_cons_eq_ok_iff, ih, List.forall_mem_cons]
    simp only [List.map_cons, List.nodup_cons, List.mem_cons, not_or]
    -- What is fresh for the check is neither a target from before nor that of this job.
    have htarget : target job ∉ jobs.map target ↔ ∀ j ∈ jobs, target j ≠ target job := by
      simp
    rw [htarget]
    constructor
    · rintro ⟨hcomplete, hfresh, hjobs, hnodup⟩
      exact ⟨⟨⟨hcomplete, hfresh⟩, fun j hj => ⟨(hjobs j hj).1, (hjobs j hj).2.2⟩⟩,
        fun j hj => (hjobs j hj).2.1, hnodup⟩
    · rintro ⟨⟨⟨hcomplete, hfresh⟩, hjobs⟩, hne, hnodup⟩
      exact ⟨hcomplete, hfresh, fun j hj => ⟨(hjobs j hj).1, hne j hj, (hjobs j hj).2⟩, hnodup⟩

/-- A manifest is valid under a root when its jobs are complete and their targets differ. -/
theorem validateFrom_eq_ok_iff {root : Path} {manifest : Manifest} :
    manifest.validateFrom root = .ok () ↔
      (∀ job ∈ manifest.jobs, IsComplete job) ∧ (manifest.jobs.map (·.target root)).Nodup := by
  rw [validateFrom, checkFrom_eq_ok_iff]
  simp

end BlockEdit.Manifest
