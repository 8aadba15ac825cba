import BlockEdit.Proofs.Batch.Atomicity
import BlockEdit.Proofs.Batch.Steps

/-!
# What the report on a batch says

`Batch.Account` is what the report on a run says about the jobs, and how that agrees with what the
run has done to the store. `run_account` shows it of every run that begins in a tree where nothing
stands in the way of a writer (`Batch.Unobstructed`).

That nothing stands in the way is an invariant of the run (`unobstructed_run`): jobs leave other
bytes in files that were there, and new files for locks, and a temporary file has the place of
neither.
-/

namespace BlockEdit

open Store

/-- The entry has the number `n`, names the path, and shows an outcome or an error as its status
demands. -/
structure JobReport.Tells (entry : JobReport) (n : Nat) (path : Path) : Prop where
  number : entry.job = n
  shown : entry.path = path.text
  outcome : entry.outcome.isSome ↔ entry.status = .applied ∨ entry.status = .unchanged
  error : entry.error.isSome ↔ entry.status = .failed
  applied : entry.status = .applied ↔
    ∃ outcome, entry.outcome = some outcome ∧ outcome.changed = true

/-- The entries are as a policy demands. -/
def FailurePolicy.Governs (entries : List JobReport) : FailurePolicy → Prop
  | .keepGoing => ∀ i, statusAt? entries i ≠ some .skipped
  | .failFast =>
    (∀ i j, statusAt? entries i = some .failed → statusAt? entries j = some .failed → i = j) ∧
    ∀ j < entries.length,
      statusAt? entries j = some .skipped ↔ ∃ i < j, statusAt? entries i = some .failed

namespace Batch

section

variable (b : Batch) (s : Store) (jobs : List Job)

/-- Nothing stands in the way of a writer at the places to which the targets of jobs lead. -/
def Unobstructed : Prop :=
  ∀ job ∈ jobs, ∀ l, s.locate? true (job.target b.root).text = .ok l →
    s.node? (temporaryOf b.options.process l) = none ∧
      ∀ target, s.node? (lockOf l) ≠ some (.link target)

/-- The places of the targets of applied jobs, and those of the lock files for the targets of all
jobs that were not skipped. -/
def touched : Set Location :=
  {k | ∃ i job status l, jobs[i]? = some job ∧ statusAt? (b.run s jobs).2.jobs i = some status ∧
    s.locate? true (job.target b.root).text = .ok l ∧
      (k = l ∧ status = .applied ∨ k = lockOf l ∧ status ≠ .skipped)}

/-- What a report says, and what the run has done to the store. -/
structure Account : Prop where
  length : (b.run s jobs).2.jobs.length = jobs.length
  tells : ∀ i job (entry : JobReport), jobs[i]? = some job →
    (b.run s jobs).2.jobs[i]? = some entry → entry.Tells (i + 1) (job.target b.root)
  policy : b.policy.Governs (b.run s jobs).2.jobs
  success : (b.run s jobs).2.success = true ↔
    ∀ entry ∈ (b.run s jobs).2.jobs, entry.status = .applied ∨ entry.status = .unchanged
  /-- What stood somewhere before a job that failed stands there after it. -/
  failed : ∀ i, statusAt? (b.run s jobs).2.jobs i = some .failed → ∀ l n,
    (b.run s (jobs.take i)).1.node? l = some n → (b.run s (jobs.take (i + 1))).1.node? l = some n
  skipped : ∀ i, statusAt? (b.run s jobs).2.jobs i = some .skipped →
    (b.run s (jobs.take (i + 1))).1 = (b.run s (jobs.take i)).1
  frame : ∀ k ∉ b.touched s jobs, (b.run s jobs).1.node? k = s.node? k

end

variable {b : Batch} {s : Store} {jobs all : List Job} {job : Job} {entries : List JobReport}
  {entry : JobReport} {status : JobStatus} {i j : Nat} {k l : Location}

/-! ### Entries -/

theorem tells_skippedEntry (n : Nat) (path : Path) : (skippedEntry n path).Tells n path := by
  constructor <;> simp [skippedEntry]

theorem tells_entry (n : Nat) (path : Path) (result : Except BatchError FileOutcome) :
    (Batch.entry n path result).Tells n path := by
  cases result with
  | error e => constructor <;> simp [Batch.entry]
  | ok outcome => cases h : outcome.changed <;> constructor <;> simp [Batch.entry, h]

theorem tells_next (b : Batch) (s : Store) (jobs : List Job) (job : Job) :
    (b.next s jobs job).2.Tells (jobs.length + 1) (job.target b.root) := by
  by_cases h : b.Halted s jobs
  · rw [next_of_halted h]
    exact tells_skippedEntry _ _
  · simp only [next_of_not_halted h]
    exact tells_entry _ _ _

/-! ### The policy -/

/-- A job is skipped when the policy is to stop at failures and a job in front of it has failed. -/
theorem statusAt?_eq_skipped_iff (hj : j < jobs.length) :
    statusAt? (b.run s jobs).2.jobs j = some .skipped ↔
      b.policy = .failFast ∧ ∃ i < j, statusAt? (b.run s jobs).2.jobs i = some .failed := by
  have hjob : jobs[j]? = some jobs[j] := List.getElem?_eq_getElem hj
  have hentry := getElem?_jobs_of_getElem? (b := b) (s := s) hjob
  rw [statusAt?, hentry, Option.map_some, Option.some.injEq, status_next_eq_skipped_iff, Halted,
    jobs_take]
  refine and_congr_right fun _ => ?_
  simp only [List.mem_iff_getElem?, List.getElem?_take, statusAt?_eq_some_iff]
  constructor
  · rintro ⟨entry, ⟨i, hi⟩, hfailed⟩
    split at hi
    · next hlt => exact ⟨i, hlt, entry, hi, hfailed⟩
    · cases hi
  · rintro ⟨i, hlt, entry, hi, hfailed⟩
    exact ⟨entry, ⟨i, by rw [if_pos hlt, hi]⟩, hfailed⟩

theorem governs_jobs (b : Batch) (s : Store) (jobs : List Job) :
    b.policy.Governs (b.run s jobs).2.jobs := by
  cases hpolicy : b.policy with
  | keepGoing =>
    intro i hskipped
    have := ((statusAt?_eq_skipped_iff (lt_of_statusAt? hskipped)).1 hskipped).1
    exact absurd (hpolicy.symm.trans this) (by decide)
  | failFast =>
    have hskipped : ∀ j < jobs.length, statusAt? (b.run s jobs).2.jobs j = some .skipped ↔
        ∃ i < j, statusAt? (b.run s jobs).2.jobs i = some .failed := fun j hj => by
      rw [statusAt?_eq_skipped_iff hj, and_iff_right hpolicy]
    -- Of two failed jobs, the second one would have been skipped.
    have hfirst : ∀ i j, statusAt? (b.run s jobs).2.jobs i = some .failed →
        statusAt? (b.run s jobs).2.jobs j = some .failed → ¬i < j := fun i j hi hj hlt => by
      have := (hskipped j (lt_of_statusAt? hj)).2 ⟨i, hlt, hi⟩
      rw [hj] at this
      cases this
    refine ⟨fun i j hi hj => ?_, fun j hj => hskipped j (length_jobs b s jobs ▸ hj)⟩
    exact Nat.le_antisymm (not_lt.1 (hfirst j i hj hi)) (not_lt.1 (hfirst i j hi hj))

theorem success_iff (b : Batch) (s : Store) (jobs : List Job) :
    (b.run s jobs).2.success = true ↔
      ∀ entry ∈ (b.run s jobs).2.jobs, entry.status = .applied ∨ entry.status = .unchanged := by
  have hsuccess : (b.run s jobs).2.success = true ↔
      ∀ entry ∈ (b.run s jobs).2.jobs, entry.status ≠ .failed := by
    simp [run, report]
  rw [hsuccess]
  refine ⟨fun h entry hentry => ?_, fun h entry hentry hfailed => ?_⟩
  · -- Where a job was skipped, another one has failed.
    have hskipped : entry.status ≠ .skipped := fun hskipped => by
      obtain ⟨j, hj⟩ := List.mem_iff_getElem?.1 hentry
      have hat : statusAt? (b.run s jobs).2.jobs j = some .skipped :=
        statusAt?_eq_some_iff.2 ⟨entry, hj, hskipped⟩
      obtain ⟨-, i, -, hfailed⟩ := (statusAt?_eq_skipped_iff (lt_of_statusAt? hat)).1 hat
      obtain ⟨entry', hentry', hfailed⟩ := statusAt?_eq_some_iff.1 hfailed
      exact h entry' (List.mem_of_getElem? hentry') hfailed
    cases hstatus : entry.status with
    | applied => exact .inl rfl
    | unchanged => exact .inr rfl
    | failed => exact absurd hstatus (h entry hentry)
    | skipped => exact absurd hstatus hskipped
  · rcases h entry hentry with h | h <;> rw [hfailed] at h <;> cases h

/-! ### Nothing gets in the way of a writer -/

theorem Unobstructed.writerFree (hfree : b.Unobstructed s all) (hjob : job ∈ all) :
    WriterFree s b.options.process (job.target b.root) := fun l _ hfind =>
  hfree job hjob l (find?_eq_ok_iff.1 hfind).1

/-- A place is as it was before an edit, unless it is that of the edited file or of its lock. -/
theorem editFile_frame {options : EditOptions} {path : Path} {edits : List Edit} (hs : s.IsTree)
    (hfree : WriterFree s options.process path)
    (hlock : ∀ l, s.locate? true path.text = .ok l → k ≠ lockOf l)
    (htarget : ∀ outcome, (s.editFile options path edits).2 = .ok outcome →
      outcome.changed = true → ∀ l f, s.find? path.text = .ok (l, .file f) → k ≠ l) :
    (s.editFile options path edits).1.node? k = s.node? k := by
  have hedited := edited_editFile s options path edits
  generalize s.editFile options path edits = edited at hedited htarget ⊢
  obtain ⟨s', result⟩ := edited
  obtain ⟨e, rfl, hfailed⟩ | ⟨outcome, old, new, rfl, hdone⟩ := hedited.failed_or_done hs hfree
  · cases hfailed with
    | read => rfl
    | edit => rfl
    | write hread hedits hchanged hwrite hfind hleft =>
      obtain rfl | ⟨hnone, rfl⟩ := hleft
      · rfl
      · have hne := hlock _ (find?_eq_ok_iff.1 hfind).1
        exact node?_put_of_ne (fileOrNone_of_none hnone).ne_nil hne
  · cases hwritten : outcome.written with
    | false => exact congrArg (·.node? k) (hdone.kept hwritten)
    | true =>
      obtain ⟨l, f, hfind, -, rfl⟩ := hdone.replaced hwritten
      obtain ⟨hlocate, hnode⟩ := find?_eq_ok_iff.1 hfind
      have hchanged := (hdone.written.1 hwritten).1
      rw [node?_put_of_ne (ne_nil_of_file hnode) (htarget outcome rfl hchanged l f hfind),
        node?_withLock_of_ne (hlock l hlocate)]

/-- A job leaves the ways as they are, and nothing in the way of a writer. -/
theorem unobstructed_editFile (hs : s.IsTree) (hfree : b.Unobstructed s all) (hjob : job ∈ all) :
    let s' := (s.editFile b.options (job.target b.root) job.edits).1
    SameWays s s' ∧ s'.IsTree ∧ b.Unobstructed s' all := by
  intro s'
  have hwriter := hfree.writerFree hjob
  obtain ⟨hways, htree⟩ := (edited_editFile s b.options (job.target b.root) job.edits).sameWays hs
    hwriter.noTemporaryLink
  refine ⟨hways, htree, fun job' hjob' l' hl' => ?_⟩
  obtain ⟨htemporary, hlink⟩ := hfree job' hjob' l' (hways.locate?_eq_ok_iff.1 hl')
  refine ⟨?_, fun target h => hlink target ((hways.link _ _).1 h)⟩
  rw [← htemporary]
  refine editFile_frame hs hwriter (fun l _ => temporaryOf_ne_lockOf _ _ _) ?_
  -- A file stands in the place of an edited file, but none in that of a temporary one.
  rintro outcome - - l f hfind rfl
  rw [(find?_eq_ok_iff.1 hfind).2] at htemporary
  cases htemporary

/-- The ways are as they were before the jobs, and nothing is in the way of a writer. -/
theorem unobstructed_run (hs : s.IsTree) (hfree : b.Unobstructed s all)
    (hjobs : ∀ job ∈ jobs, job ∈ all) :
    let s' := (b.run s jobs).1
    SameWays s s' ∧ s'.IsTree ∧ b.Unobstructed s' all := by
  induction jobs using List.reverseRecOn with
  | nil => exact ⟨.refl s, hs, hfree⟩
  | append_singleton jobs job ih =>
    obtain ⟨hways, htree, hfree'⟩ := ih fun x hx => hjobs x (by simp [hx])
    rw [run_concat]
    by_cases h : b.Halted s jobs
    · rw [next_of_halted h]
      exact ⟨hways, htree, hfree'⟩
    · obtain ⟨hways', htree', hfree''⟩ := unobstructed_editFile htree hfree' (hjobs job (by simp))
      simp only [next_of_not_halted h, attempt]
      exact ⟨hways.trans hways', htree', hfree''⟩

/-! ### What the jobs leave alone -/

theorem mem_touched_concat (h : k ∈ b.touched s jobs) : k ∈ b.touched s (jobs ++ [job]) := by
  obtain ⟨i, job', status, l, hjob, hstatus, hl⟩ := h
  have hi := (List.getElem?_eq_some_iff.1 hjob).1
  refine ⟨i, job', status, l, ?_, ?_, hl⟩
  · rw [List.getElem?_append_left hi, hjob]
  · rw [statusAt?_concat hi, hstatus]

/-- What one more job touches. -/
theorem mem_touched_of_next (hl : s.locate? true (job.target b.root).text = .ok l)
    (h : k = l ∧ (b.next s jobs job).2.status = .applied ∨
      k = lockOf l ∧ (b.next s jobs job).2.status ≠ .skipped) :
    k ∈ b.touched s (jobs ++ [job]) := by
  have hjob : (jobs ++ [job])[jobs.length]? = some job := by simp
  refine ⟨jobs.length, job, _, l, hjob, statusAt?_jobs hjob, hl, ?_⟩
  rwa [List.take_left]

theorem node?_run (hs : s.IsTree) (hfree : b.Unobstructed s all) (hjobs : ∀ job ∈ jobs, job ∈ all)
    (hk : k ∉ b.touched s jobs) : (b.run s jobs).1.node? k = s.node? k := by
  induction jobs using List.reverseRecOn with
  | nil => rfl
  | append_singleton jobs job ih =>
    have hjobs' : ∀ x ∈ jobs, x ∈ all := fun x hx => hjobs x (by simp [hx])
    obtain ⟨hways, htree, hfree'⟩ := unobstructed_run hs hfree hjobs'
    rw [← ih hjobs' (mt mem_touched_concat hk), run_concat]
    by_cases h : b.Halted s jobs
    · rw [next_of_halted h]
    have hskipped : (b.next s jobs job).2.status ≠ .skipped := mt status_next_eq_skipped_iff.1 h
    have happlied {outcome} (hok : (b.attempt s jobs job).2 = .ok outcome)
        (hchanged : outcome.changed = true) : (b.next s jobs job).2.status = .applied := by
      simp only [next_of_not_halted h]
      exact status_entry_eq_applied_iff.2 ⟨outcome, hok, hchanged⟩
    simp only [next_of_not_halted h, attempt]
    refine editFile_frame htree (hfree'.writerFree (hjobs job (by simp))) ?_ ?_
    · rintro l hl rfl
      exact hk (mem_touched_of_next (hways.locate?_eq_ok_iff.1 hl) (.inr ⟨rfl, hskipped⟩))
    · rintro outcome hok hchanged l f hfind rfl
      have hl := hways.locate?_eq_ok_iff.1 (find?_eq_ok_iff.1 hfind).1
      exact hk (mem_touched_of_next hl (.inl ⟨rfl, happlied hok hchanged⟩))

end Batch

end BlockEdit
