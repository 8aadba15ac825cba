import BlockEdit.Batch.Run
import Mathlib.Data.List.Induction

/-!
# Jobs one after another

`Batch.next` is what one more job comes to behind others, and a run is made of such steps: the jobs
in front of a job are run as if they were alone (`jobs_take`), and then it is the next one
(`getElem?_jobs`, `run_take_succ`). So what holds of every step holds of a run, by induction on the
jobs from the last one on (`run_concat`).

After a failed job the policy may halt the run (`Halted`). From then on nothing happens
(`next_of_halted`); before that, each job is attempted (`next_of_not_halted`).
-/

namespace BlockEdit

/-- The status of the entry at a place in a list. -/
def statusAt? (entries : List JobReport) (i : Nat) : Option JobStatus :=
  entries[i]?.map (·.status)

theorem statusAt?_eq_some_iff {entries : List JobReport} {status : JobStatus} {i : Nat} :
    statusAt? entries i = some status ↔ ∃ entry, entries[i]? = some entry ∧ entry.status = status :=
  Option.map_eq_some_iff

namespace Batch

variable {b : Batch} {s : Store} {jobs : List Job} {job : Job} {status : JobStatus} {i : Nat}

/-- What one more job comes to when others have been run. -/
def next (b : Batch) (s : Store) (jobs : List Job) (job : Job) : Store × JobReport :=
  b.runJob ((b.run s jobs).2.jobs.any b.stopsAfter) (jobs.length + 1) (b.run s jobs).1 job

/-- The store after an edit of the file of the next job, and the result. -/
def attempt (b : Batch) (s : Store) (jobs : List Job) (job : Job) :
    Store × Except BatchError FileOutcome :=
  (b.run s jobs).1.editFile b.options (job.target b.root) job.edits

/-! ### Runs in parts -/

theorem runFrom_append (b : Batch) (stopped : Bool) (n : Nat) (s : Store) (xs ys : List Job) :
    b.runFrom stopped n s (xs ++ ys) =
      let first := b.runFrom stopped n s xs
      let second := b.runFrom (stopped || first.2.any b.stopsAfter) (n + xs.length) first.1 ys
      (second.1, first.2 ++ second.2) := by
  induction xs generalizing stopped n s with
  | nil => simp [runFrom]
  | cons x xs ih =>
    simp only [List.cons_append, runFrom, ih, List.any_cons, List.length_cons, Bool.or_assoc,
      Nat.add_assoc, Nat.add_comm 1]

theorem run_concat (b : Batch) (s : Store) (jobs : List Job) (job : Job) :
    b.run s (jobs ++ [job]) =
      ((b.next s jobs job).1, b.report ((b.run s jobs).2.jobs ++ [(b.next s jobs job).2])) := by
  simp only [run, runFrom_append, runFrom, next, report, Bool.false_or, Nat.add_comm 1]

theorem length_jobs (b : Batch) (s : Store) (jobs : List Job) :
    (b.run s jobs).2.jobs.length = jobs.length := by
  induction jobs using List.reverseRecOn with
  | nil => rfl
  | append_singleton jobs job ih => rw [run_concat]; simp [report, ih]

/-- The jobs in front of a job are run as if they were alone. -/
theorem jobs_take (b : Batch) (s : Store) (jobs : List Job) (i : Nat) :
    (b.run s (jobs.take i)).2.jobs = (b.run s jobs).2.jobs.take i := by
  conv_rhs => rw [← List.take_append_drop i jobs]
  have htake : (b.run s (jobs.take i)).2.jobs.length ≤ i := by
    rw [length_jobs]
    exact List.length_take_le i jobs
  by_cases hi : i ≤ jobs.length
  · have hlength : (b.run s (jobs.take i)).2.jobs.length = i := by
      rw [length_jobs, List.length_take_of_le hi]
    simp only [run, runFrom_append, report] at hlength ⊢
    rw [List.take_left' hlength]
  · have hnil : jobs.drop i = [] := List.drop_eq_nil_of_le (Nat.le_of_not_le hi)
    rw [hnil, List.append_nil, List.take_of_length_le htake]

/-- The entry of a job is what it comes to behind the jobs in front of it. -/
theorem getElem?_jobs (b : Batch) (s : Store) (jobs : List Job) (i : Nat) :
    (b.run s jobs).2.jobs[i]? = jobs[i]?.map fun job => (b.next s (jobs.take i) job).2 := by
  induction jobs using List.reverseRecOn with
  | nil => rfl
  | append_singleton jobs job ih =>
    rw [run_concat]
    by_cases hi : i < jobs.length
    · have hi' : i < (b.run s jobs).2.jobs.length := by rwa [length_jobs]
      rw [report, List.getElem?_append_left hi', ih, List.getElem?_append_left hi,
        List.take_append_of_le_length (Nat.le_of_lt hi)]
    · rw [report, List.getElem?_append_right (by rw [length_jobs]; omega), length_jobs,
        List.getElem?_append_right (by omega)]
      obtain heq | hlt := Nat.eq_or_lt_of_le (Nat.le_of_not_lt hi)
      · rw [← heq, List.take_left]
        simp
      · have hne : i - jobs.length ≠ 0 := by omega
        obtain ⟨k, hk⟩ := Nat.exists_eq_succ_of_ne_zero hne
        simp [hk]

theorem getElem?_jobs_of_getElem? (h : jobs[i]? = some job) :
    (b.run s jobs).2.jobs[i]? = some (b.next s (jobs.take i) job).2 := by
  rw [getElem?_jobs, h, Option.map_some]

theorem run_take_succ (h : jobs[i]? = some job) :
    (b.run s (jobs.take (i + 1))).1 = (b.next s (jobs.take i) job).1 := by
  rw [List.take_add_one, h, Option.toList_some, run_concat]

/-! ### What a step does -/

/-- A job has failed, and the policy is to leave out the others. -/
def Halted (b : Batch) (s : Store) (jobs : List Job) : Prop :=
  b.policy = .failFast ∧ ∃ entry ∈ (b.run s jobs).2.jobs, entry.status = .failed

theorem not_halted_of_keepGoing (hpolicy : b.policy = .keepGoing) : ¬b.Halted s jobs := fun h => by
  rw [h.1] at hpolicy
  cases hpolicy

theorem any_stopsAfter_iff :
    (b.run s jobs).2.jobs.any b.stopsAfter = true ↔ b.Halted s jobs := by
  simp only [List.any_eq_true, stopsAfter, Halted, Bool.and_eq_true, decide_eq_true_eq]
  constructor
  · rintro ⟨entry, hentry, hfailed, hpolicy⟩
    exact ⟨hpolicy, entry, hentry, hfailed⟩
  · rintro ⟨hpolicy, entry, hentry, hfailed⟩
    exact ⟨entry, hentry, hfailed, hpolicy⟩

theorem next_of_halted (h : b.Halted s jobs) :
    b.next s jobs job =
      ((b.run s jobs).1, skippedEntry (jobs.length + 1) (job.target b.root)) := by
  rw [next, any_stopsAfter_iff.2 h, runJob]
  exact if_pos rfl

theorem next_of_not_halted (h : ¬b.Halted s jobs) :
    b.next s jobs job = ((b.attempt s jobs job).1,
      entry (jobs.length + 1) (job.target b.root) (b.attempt s jobs job).2) := by
  rw [next, Bool.eq_false_iff.2 (mt any_stopsAfter_iff.1 h), runJob]
  simp only [Bool.false_eq_true, if_false, attempt]

/-! ### Statuses -/

theorem status_entry_ne_skipped (n : Nat) (path : Path) (result : Except BatchError FileOutcome) :
    (Batch.entry n path result).status ≠ .skipped := by
  cases result with
  | error e => simp [Batch.entry]
  | ok outcome => cases h : outcome.changed <;> simp [Batch.entry, h]

theorem status_next_eq_skipped_iff :
    (b.next s jobs job).2.status = .skipped ↔ b.Halted s jobs := by
  by_cases h : b.Halted s jobs
  · rw [next_of_halted h]
    simp [h, skippedEntry]
  · rw [next_of_not_halted h]
    simp [h, status_entry_ne_skipped]

theorem status_entry_eq_failed_iff {n : Nat} {path : Path}
    {result : Except BatchError FileOutcome} :
    (Batch.entry n path result).status = .failed ↔ ∃ e, result = .error e := by
  cases result with
  | error e => simp [Batch.entry]
  | ok outcome => cases h : outcome.changed <;> simp [Batch.entry, h]

theorem status_entry_eq_applied_iff {n : Nat} {path : Path}
    {result : Except BatchError FileOutcome} :
    (Batch.entry n path result).status = .applied ↔
      ∃ outcome, result = .ok outcome ∧ outcome.changed = true := by
  cases result with
  | error e => simp [Batch.entry]
  | ok outcome => cases h : outcome.changed <;> simp [Batch.entry, h]

theorem statusAt?_jobs (h : jobs[i]? = some job) :
    statusAt? (b.run s jobs).2.jobs i = some (b.next s (jobs.take i) job).2.status := by
  rw [statusAt?, getElem?_jobs_of_getElem? h, Option.map_some]

/-- One more job leaves the entries of the others as they are. -/
theorem statusAt?_concat (hi : i < jobs.length) :
    statusAt? (b.run s (jobs ++ [job])).2.jobs i = statusAt? (b.run s jobs).2.jobs i := by
  rw [run_concat, report, statusAt?, List.getElem?_append_left (by rwa [length_jobs]), statusAt?]

theorem lt_of_statusAt? (h : statusAt? (b.run s jobs).2.jobs i = some status) :
    i < jobs.length := by
  obtain ⟨entry, hentry, -⟩ := statusAt?_eq_some_iff.1 h
  rw [← length_jobs b s jobs]
  exact (List.getElem?_eq_some_iff.1 hentry).1

theorem exists_job_of_statusAt? (h : statusAt? (b.run s jobs).2.jobs i = some status) :
    ∃ job, jobs[i]? = some job ∧ (b.next s (jobs.take i) job).2.status = status := by
  have hi := lt_of_statusAt? h
  refine ⟨jobs[i], List.getElem?_eq_getElem hi, ?_⟩
  rw [statusAt?_jobs (List.getElem?_eq_getElem hi)] at h
  exact Option.some.inj h

end Batch

end BlockEdit
