import BlockEdit.Proofs.Batch.Steps
import Mathlib.Data.Nat.Find

/-!
# Stopping at the first failure

Under both policies the jobs are run alike up to the first one that fails, that one included
(`run_failFast_eq`, `next_failFast_eq`). Then one policy goes on, and the other one leaves the store
alone and skips every job behind (`run_append_of_halted`). So a run that stops at failures is one
that goes on, cut off behind its first failure: `failFast_eq_cut`.

Nothing is assumed of the jobs. Several of them may be for one file, and then the later ones find
there what the earlier ones have left.
-/

namespace BlockEdit.Batch

variable {b : Batch} {s : Store} {jobs front behind : List Job} {job : Job} {i j : Nat}

/-- The batch with another policy. -/
def under (b : Batch) (policy : FailurePolicy) : Batch := { b with policy := policy }

/-- No job fails. -/
def NoneFails (b : Batch) (s : Store) (jobs : List Job) : Prop :=
  ∀ i, statusAt? (b.run s jobs).2.jobs i ≠ some .failed

theorem NoneFails.not_halted (h : b.NoneFails s jobs) : ¬b.Halted s jobs := by
  rintro ⟨-, entry, hentry, hfailed⟩
  obtain ⟨i, hi⟩ := List.mem_iff_getElem?.1 hentry
  exact h i (statusAt?_eq_some_iff.2 ⟨entry, hi, hfailed⟩)

theorem NoneFails.of_concat (h : b.NoneFails s (jobs ++ [job])) : b.NoneFails s jobs :=
  fun i hfailed => h i (by rwa [statusAt?_concat (lt_of_statusAt? hfailed)])

/-- The jobs in front of the first one that fails do not fail. -/
theorem noneFails_take (h : ∀ j < i, statusAt? (b.run s jobs).2.jobs j ≠ some .failed) :
    b.NoneFails s (jobs.take i) := by
  intro j hfailed
  have hj := lt_of_statusAt? hfailed
  rw [List.length_take] at hj
  rw [statusAt?, jobs_take, List.getElem?_take_of_lt (by omega)] at hfailed
  exact h j (by omega) hfailed

/-! ### Up to the first failure -/

/-- The next job comes to the same under both policies, when those in front have come to the same
and none has failed. -/
theorem next_failFast_of_run_eq (job : Job) (h : (b.under .keepGoing).NoneFails s jobs)
    (hstore : ((b.under .failFast).run s jobs).1 = ((b.under .keepGoing).run s jobs).1)
    (hjobs : ((b.under .failFast).run s jobs).2.jobs = ((b.under .keepGoing).run s jobs).2.jobs) :
    (b.under .failFast).next s jobs job = (b.under .keepGoing).next s jobs job := by
  have hnone : (b.under .failFast).NoneFails s jobs := fun i => by
    rw [hjobs]
    exact h i
  rw [next_of_not_halted hnone.not_halted, next_of_not_halted (not_halted_of_keepGoing rfl),
    attempt, attempt, hstore]
  rfl

theorem run_failFast_eq (h : (b.under .keepGoing).NoneFails s jobs) :
    ((b.under .failFast).run s jobs).1 = ((b.under .keepGoing).run s jobs).1 ∧
      ((b.under .failFast).run s jobs).2.jobs = ((b.under .keepGoing).run s jobs).2.jobs := by
  induction jobs using List.reverseRecOn with
  | nil => exact ⟨rfl, rfl⟩
  | append_singleton jobs job ih =>
    obtain ⟨hstore, hjobs⟩ := ih h.of_concat
    have hnext := next_failFast_of_run_eq job h.of_concat hstore hjobs
    rw [run_concat, run_concat, hnext]
    exact ⟨rfl, by simp only [report, hjobs]⟩

/-- The first job that fails does the same under both policies. -/
theorem next_failFast_eq (job : Job) (h : (b.under .keepGoing).NoneFails s jobs) :
    (b.under .failFast).next s jobs job = (b.under .keepGoing).next s jobs job := by
  obtain ⟨hstore, hjobs⟩ := run_failFast_eq h
  exact next_failFast_of_run_eq job h hstore hjobs

/-- With the first job that fails, what was done is the same under both policies, and the run that
stops at failures is halted. -/
theorem run_failFast_take (hi : statusAt? ((b.under .keepGoing).run s jobs).2.jobs i = some .failed)
    (hfirst : ∀ j < i, statusAt? ((b.under .keepGoing).run s jobs).2.jobs j ≠ some .failed) :
    ((b.under .failFast).run s (jobs.take (i + 1))).1 =
        ((b.under .keepGoing).run s (jobs.take (i + 1))).1 ∧
      ((b.under .failFast).run s (jobs.take (i + 1))).2.jobs =
        ((b.under .keepGoing).run s (jobs.take (i + 1))).2.jobs ∧
      (b.under .failFast).Halted s (jobs.take (i + 1)) := by
  have hnone := noneFails_take hfirst
  obtain ⟨job, hjob, hfailed⟩ := exists_job_of_statusAt? hi
  have hnext := next_failFast_eq job hnone
  have htake : jobs.take (i + 1) = jobs.take i ++ [job] := by
    rw [List.take_add_one, hjob, Option.toList_some]
  rw [Halted, htake, run_concat, run_concat, hnext]
  refine ⟨rfl, ?_, rfl, _, List.mem_append_right _ (List.mem_singleton_self _), hfailed⟩
  simp only [report, (run_failFast_eq hnone).2]

/-! ### Behind it -/

theorem Halted.append (h : b.Halted s front) (behind : List Job) :
    b.Halted s (front ++ behind) := by
  obtain ⟨hpolicy, entry, hentry, hfailed⟩ := h
  refine ⟨hpolicy, entry, ?_, hfailed⟩
  have htake := jobs_take b s (front ++ behind) front.length
  rw [List.take_left] at htake
  rw [htake] at hentry
  exact List.mem_of_mem_take hentry

/-- A run that is halted leaves the store alone. -/
theorem run_append_of_halted (h : b.Halted s front) (behind : List Job) :
    (b.run s (front ++ behind)).1 = (b.run s front).1 := by
  induction behind using List.reverseRecOn with
  | nil => rw [List.append_nil]
  | append_singleton behind job ih =>
    rw [← List.append_assoc, run_concat, next_of_halted (h.append behind), ih]

/-- It skips the jobs that are left. -/
theorem getElem?_jobs_of_halted (h : b.Halted s (jobs.take i)) (hij : i ≤ j)
    (hjob : jobs[j]? = some job) :
    (b.run s jobs).2.jobs[j]? = some (skippedEntry (j + 1) (job.target b.root)) := by
  have htake : jobs.take j = jobs.take i ++ (jobs.take j).drop i := by
    conv_lhs => rw [← List.take_append_drop i (jobs.take j)]
    rw [List.take_take, Nat.min_eq_left hij]
  have hhalted : b.Halted s (jobs.take j) := htake ▸ h.append _
  have hj := (List.getElem?_eq_some_iff.1 hjob).1
  rw [getElem?_jobs_of_getElem? hjob, next_of_halted hhalted,
    List.length_take_of_le (Nat.le_of_lt hj)]

/-! ### The whole run -/

theorem success_iff_noneFails (b : Batch) (s : Store) (jobs : List Job) :
    (b.run s jobs).2.success = true ↔ b.NoneFails s jobs := by
  simp only [run, report, List.all_eq_true, decide_eq_true_eq, NoneFails, ne_eq,
    statusAt?_eq_some_iff, not_exists, not_and, List.mem_iff_getElem?]
  constructor
  · intro h i entry hentry
    exact h entry ⟨i, hentry⟩
  · rintro h entry ⟨i, hentry⟩
    exact h i entry hentry

theorem noneFails_failFast_iff :
    (b.under .failFast).NoneFails s jobs ↔ (b.under .keepGoing).NoneFails s jobs := by
  constructor
  · intro h
    by_contra hsome
    simp only [NoneFails, ne_eq, not_forall, not_not] at hsome
    -- The first failure is one under both policies.
    have hfirst := Nat.find_spec hsome
    obtain ⟨-, hentries, -⟩ := run_failFast_take hfirst fun j => Nat.find_min hsome
    refine h (Nat.find hsome) ?_
    rw [jobs_take, jobs_take] at hentries
    rw [statusAt?, ← List.getElem?_take_of_lt (Nat.lt_succ_self _), hentries,
      List.getElem?_take_of_lt (Nat.lt_succ_self _)]
    exact hfirst
  · intro h i
    rw [(run_failFast_eq h).2]
    exact h i

/-- A run that stops at failures is one that goes on, cut off behind its first failure. -/
theorem failFast_eq_cut (b : Batch) (s : Store) (jobs : List Job) :
    let fast := (b.under .failFast).run s jobs
    let all := (b.under .keepGoing).run s jobs
    ((∀ i, statusAt? all.2.jobs i ≠ some .failed) →
      fast.1 = all.1 ∧ fast.2.jobs = all.2.jobs) ∧
    (∀ i, statusAt? all.2.jobs i = some .failed →
      (∀ j < i, statusAt? all.2.jobs j ≠ some .failed) →
        fast.2.jobs.take (i + 1) = all.2.jobs.take (i + 1) ∧
        (∀ j job, i < j → jobs[j]? = some job →
          fast.2.jobs[j]? = some (skippedEntry (j + 1) (job.target b.root))) ∧
        fast.1 = ((b.under .keepGoing).run s (jobs.take (i + 1))).1) ∧
    fast.2.success = all.2.success := by
  intro fast all
  refine ⟨run_failFast_eq, fun i hi hfirst => ?_, ?_⟩
  · obtain ⟨hstore, hentries, hhalted⟩ := run_failFast_take hi hfirst
    refine ⟨?_, fun j job hij hjob => getElem?_jobs_of_halted hhalted hij hjob, ?_⟩
    · rwa [jobs_take, jobs_take] at hentries
    · rw [← hstore, ← run_append_of_halted hhalted (jobs.drop (i + 1)), List.take_append_drop]
  · rw [Bool.eq_iff_iff, success_iff_noneFails, success_iff_noneFails, noneFails_failFast_iff]

/-- Of three jobs, the second one fails because its file is missing. So the third one is run under
one policy only. -/
theorem failFast_eq_cut_three_jobs :
    let s := ((Store.root []).put ["a"] (.file ⟨"x".toUTF8, 0o600, false⟩)).put ["c"]
      (.file ⟨"x".toUTF8, 0o600, false⟩)
    let b : Batch := ⟨⟨"/"⟩, .failFast, ⟨7, false⟩⟩
    let edits : List Edit := [.insertBefore "x" "y"]
    let jobs : List Job := [⟨"a", edits⟩, ⟨"b", edits⟩, ⟨"./c", edits⟩]
    ((b.under .keepGoing).run s jobs).2.jobs.map (·.status) = [.applied, .failed, .applied] ∧
      ((b.under .failFast).run s jobs).2.jobs.map (·.status) = [.applied, .failed, .skipped] ∧
      ((b.under .failFast).run s jobs).2.jobs.take 2 =
        ((b.under .keepGoing).run s jobs).2.jobs.take 2 ∧
      ((b.under .failFast).run s jobs).1 = ((b.under .keepGoing).run s (jobs.take 2)).1 := by
  intro s b edits jobs
  have hstatuses : ((b.under .keepGoing).run s jobs).2.jobs.map (·.status) =
      [.applied, .failed, .applied] := by decide +kernel
  have hfailed : statusAt? ((b.under .keepGoing).run s jobs).2.jobs 1 = some .failed := by
    rw [statusAt?, ← List.getElem?_map, hstatuses]
    rfl
  have hfirst : ∀ j < 1, statusAt? ((b.under .keepGoing).run s jobs).2.jobs j ≠ some .failed := by
    intro j hj
    obtain rfl := Nat.lt_one_iff.1 hj
    rw [statusAt?, ← List.getElem?_map, hstatuses]
    decide
  obtain ⟨hfront, -, hstore⟩ := (failFast_eq_cut b s jobs).2.1 1 hfailed hfirst
  exact ⟨hstatuses, by decide +kernel, hfront, hstore⟩

end BlockEdit.Batch
