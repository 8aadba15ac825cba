import BlockEdit.Proofs.Batch.Editing
import BlockEdit.Proofs.Batch.Steps
import BlockEdit.Proofs.Store.Sight

/-!
# What a dry run foretells

A dry run reads and edits as the real run does, and leaves the store alone. So for one file it fails
where the real run does before it writes, and its outcome is the real one, but for what tells that
the file was written (`FileOutcome.forecast`).

The jobs of a batch are run on the store that the jobs in front of them leave, but in a dry run on
the one from the beginning. Where the target of each job stays out of the way of those behind it
(`Store.Apart`), these stores look the same to it (`looksSame_run`), so that the reports are the
same: `dryRun_forecast`.
-/

namespace BlockEdit

open Store

/-- The outcome without what tells whether the file was written. -/
def FileOutcome.forecast (outcome : FileOutcome) : FileOutcome :=
  { outcome with written := false, diff := none }

def JobReport.forecast (entry : JobReport) : JobReport :=
  { entry with outcome := entry.outcome.map FileOutcome.forecast }

/-- The report without what tells a dry run from a real one. -/
def BatchReport.forecast (report : BatchReport) : BatchReport :=
  { report with dryRun := true, jobs := report.jobs.map JobReport.forecast }

def EditOptions.dry (options : EditOptions) : EditOptions := { options with dryRun := true }

def Batch.dry (b : Batch) : Batch := { b with options := b.options.dry }

/-- The path leads to another file than `target`. In the places of the lock file and of the
temporary file for that of `target`, there are directories if the path leads through them. -/
def Store.Apart (s : Store) (process : Nat) (target path : Path) : Prop :=
  ∀ l f, s.find? target.text = .ok (l, .file f) → s.locate? true path.text ≠ .ok l ∧
    ∀ k ∈ wayOf s.workingDirectory path.text, k = lockOf l ∨ k = temporaryOf process l →
      s.node? k = some .directory

namespace Batch

section

variable (b : Batch) (s : Store) (jobs : List Job)

/-- The targets of jobs stay out of the way of those of the jobs behind them. -/
def JobsApart : Prop :=
  jobs.Pairwise fun job later =>
    s.Apart b.options.process (job.target b.root) (later.target b.root)

/-- Where a job fails, its file cannot be read or edited. -/
def NoWriteFails : Prop :=
  ∀ i job, jobs[i]? = some job → statusAt? (b.run s jobs).2.jobs i = some .failed →
    ∃ e, Refuses (b.run s (jobs.take i)).1 (job.target b.root) job.edits e

end

end Batch

variable {s t : Store} {options : EditOptions} {path target : Path} {edits : List Edit}

/-! ### One file -/

theorem not_refuses {old new : String} {e : BatchError} (hread : s.readText path = .ok old)
    (hedits : Edit.applyAll old edits = .ok new) : ¬Refuses s path edits e := by
  rintro (⟨h⟩ | ⟨h, h'⟩)
  · rw [hread] at h
    cases h
  · rw [hread] at h
    cases h
    rw [hedits] at h'
    cases h'

/-- The result of an edit of a file, unless writing fails. -/
theorem result_of_prepared {old new : String} (options : EditOptions)
    (hread : s.readText path = .ok old) (hedits : Edit.applyAll old edits = .ok new) :
    (s.editFile options path edits).2 = .ok (.ofTexts path options.dryRun old new) ∨
      ∃ e, (s.editFile options path edits).2 = .error e := by
  by_cases hwritten : (FileOutcome.ofTexts path options.dryRun old new).written = true
  · rw [editFile_of_written hread hedits hwritten]
    cases s.write options.process path new.toUTF8 with
    | mk s' result =>
      cases result with
      | error e => exact .inr ⟨_, rfl⟩
      | ok _ => exact .inl rfl
  · rw [editFile_of_not_written hread hedits (Bool.eq_false_iff.2 hwritten)]
    exact .inl rfl

theorem editFile_dry_of_prepared {old new : String} (hread : s.readText path = .ok old)
    (hedits : Edit.applyAll old edits = .ok new) :
    s.editFile options.dry path edits = (s, .ok (.ofTexts path true old new)) := by
  have hnot : (FileOutcome.ofTexts path options.dry.dryRun old new).written = false := by
    simp [FileOutcome.ofTexts, EditOptions.dry]
  exact editFile_of_not_written hread hedits hnot

/-- A dry run leaves the store alone. -/
theorem editFile_dry_fst (s : Store) (options : EditOptions) (path : Path) (edits : List Edit) :
    (s.editFile options.dry path edits).1 = s := by
  obtain ⟨e, h⟩ | ⟨old, new, hread, hedits⟩ := refuses_or_prepared s path edits
  · rw [editFile_of_refuses h]
  · rw [editFile_dry_of_prepared hread hedits]

/-- A dry run foretells the result of an edit that does not fail to write, in a store where the same
text is read. -/
theorem forecast_editFile (hread : t.readText path = s.readText path)
    (hwrite : ∀ e, (t.editFile options path edits).2 = .error e → ∃ e, Refuses t path edits e) :
    (s.editFile options.dry path edits).2.map FileOutcome.forecast =
      (t.editFile options path edits).2.map FileOutcome.forecast := by
  obtain ⟨e, h⟩ | ⟨old, new, hold, hnew⟩ := refuses_or_prepared s path edits
  · rw [editFile_of_refuses h, editFile_of_refuses (h.congr hread)]
  · rw [editFile_dry_of_prepared hold hnew]
    rw [← hread] at hold
    obtain hok | ⟨e, herror⟩ := result_of_prepared options hold hnew
    · rw [hok]
      rfl
    · obtain ⟨e', h⟩ := hwrite e herror
      exact absurd h (not_refuses hold hnew)

theorem editFile_dry_eq_error_iff {e : BatchError} :
    (s.editFile options.dry path edits).2 = .error e ↔
      (s.editFile options path edits).2 = .error e ∧ Refuses s path edits e := by
  constructor
  · intro herror
    obtain ⟨e', h⟩ | ⟨old, new, hread, hedits⟩ := refuses_or_prepared s path edits
    · rw [editFile_of_refuses h] at herror
      cases herror
      rw [editFile_of_refuses h]
      exact ⟨rfl, h⟩
    · rw [editFile_dry_of_prepared hread hedits] at herror
      cases herror
  · rintro ⟨-, h⟩
    rw [editFile_of_refuses h]

theorem exists_forecast_of_ok {outcome : FileOutcome}
    (h : (s.editFile options path edits).2 = .ok outcome) :
    ∃ outcome', (s.editFile options.dry path edits).2 = .ok outcome' ∧
      outcome'.forecast = outcome.forecast := by
  have hforecast : (s.editFile options.dry path edits).2.map FileOutcome.forecast =
      (s.editFile options path edits).2.map FileOutcome.forecast :=
    forecast_editFile rfl fun e herror => by
      rw [h] at herror
      cases herror
  rw [h] at hforecast
  cases hdry : (s.editFile options.dry path edits).2 with
  | error e => rw [hdry] at hforecast; cases hforecast
  | ok outcome' =>
    rw [hdry] at hforecast
    exact ⟨outcome', rfl, Except.ok.inj hforecast⟩

/-! ### The jobs of a batch -/

/-- After an edit, the store still looks the same to a path out of the way of which the target
stays. -/
theorem looksSame_editFile (hs : s.LinkFree) (hways : SameWays s t) (htree : t.IsTree)
    (hapart : s.Apart options.process target path) (htarget : LooksSame target.text s t)
    (hpath : LooksSame path.text s t)
    (hwrite : ∀ e, (t.editFile options target edits).2 = .error e →
      ∃ e, Refuses t target edits e) :
    LooksSame path.text s (t.editFile options target edits).1 := by
  have hlinks := hways.linkFree hs
  obtain heq | ⟨l, f, hfind, halters, hfile⟩ :=
    (edited_editFile t options target edits).alters htree fun l f _ => hlinks _
  · rwa [heq]
  cases hresult : (t.editFile options target edits).2 with
  | error e =>
    obtain ⟨e', h⟩ := hwrite e hresult
    rwa [editFile_of_refuses h]
  | ok outcome =>
    have hnode := (find?_eq_ok_iff.1 hfind).2
    rw [htarget.find?_eq hs] at hfind
    obtain ⟨hne, hbeside⟩ := hapart l f hfind
    refine hpath.of_alters hs hways halters ⟨f, (find?_eq_ok_iff.1 hfind).2⟩
      (hfile outcome hresult) hne ?_
    rintro k hk (rfl | rfl | hlock)
    · exact .inl rfl
    · exact .inr (hbeside _ hk (.inr rfl))
    · exact .inr (hbeside k hk (.inl (eq_lockOf_of_locate? htree hnode (hlinks _) hlock)))

namespace Batch

variable {b : Batch} {jobs : List Job} {job : Job}

theorem NoWriteFails.of_concat (h : b.NoWriteFails s (jobs ++ [job])) : b.NoWriteFails s jobs := by
  intro i job' hjob' hfailed
  have hi := (List.getElem?_eq_some_iff.1 hjob').1
  have := h i job' (by rw [List.getElem?_append_left hi, hjob']) (by rwa [statusAt?_concat hi])
  rwa [List.take_append_of_le_length (Nat.le_of_lt hi)] at this

theorem NoWriteFails.refuses (h : b.NoWriteFails s (jobs ++ [job])) (hnot : ¬b.Halted s jobs)
    {e : BatchError} (herror : (b.attempt s jobs job).2 = .error e) :
    ∃ e, Refuses (b.run s jobs).1 (job.target b.root) job.edits e := by
  have hjob : (jobs ++ [job])[jobs.length]? = some job := by simp
  have := h jobs.length job hjob ?_
  · rwa [List.take_left] at this
  · rw [statusAt?_jobs hjob, List.take_left]
    simp only [next_of_not_halted hnot, Option.some.injEq]
    exact status_entry_eq_failed_iff.2 ⟨e, herror⟩

/-- After some jobs, the store looks the same to a path out of the way of which their targets
stay. -/
theorem looksSame_run (hs : s.IsTree) (hlinks : s.LinkFree) (hapart : b.JobsApart s jobs)
    (hwrites : b.NoWriteFails s jobs) :
    let t := (b.run s jobs).1
    SameWays s t ∧ t.IsTree ∧ ∀ path,
      (∀ job ∈ jobs, s.Apart b.options.process (job.target b.root) path) →
        LooksSame path.text s t := by
  induction jobs using List.reverseRecOn with
  | nil => exact ⟨.refl s, hs, fun path _ => .refl path.text s⟩
  | append_singleton jobs job ih =>
    obtain ⟨hfront, -, hlast⟩ := List.pairwise_append.1 hapart
    obtain ⟨hways, htree, hlooks⟩ := ih hfront hwrites.of_concat
    rw [run_concat]
    by_cases h : b.Halted s jobs
    · rw [next_of_halted h]
      exact ⟨hways, htree, fun path hpath => hlooks path fun x hx => hpath x (by simp [hx])⟩
    have htarget := hlooks (job.target b.root) fun x hx => hlast x hx job (by simp)
    have hedited := edited_editFile (b.run s jobs).1 b.options (job.target b.root) job.edits
    obtain ⟨hways', htree'⟩ := hedited.sameWays htree fun _ _ _ => hways.linkFree hlinks _
    simp only [next_of_not_halted h, attempt]
    refine ⟨hways.trans hways', htree', fun path hpath => ?_⟩
    exact looksSame_editFile hlinks hways htree (hpath job (by simp)) htarget
      (hlooks path fun x hx => hpath x (by simp [hx])) fun e => hwrites.refuses h

@[simp] theorem target_dry_root (b : Batch) (job : Job) :
    job.target b.dry.root = job.target b.root := rfl

/-- A dry run of a batch leaves the store alone. -/
theorem run_dry_fst (b : Batch) (s : Store) (jobs : List Job) : (b.dry.run s jobs).1 = s := by
  induction jobs using List.reverseRecOn with
  | nil => rfl
  | append_singleton jobs job ih =>
    rw [run_concat]
    by_cases h : b.dry.Halted s jobs
    · rw [next_of_halted h, ih]
    · simp only [next_of_not_halted h, attempt, ih]
      exact editFile_dry_fst s b.options (job.target b.root) job.edits

theorem forecast_entry (n : Nat) (path : Path) (result : Except BatchError FileOutcome) :
    (entry n path result).forecast = entry n path (result.map FileOutcome.forecast) := by
  cases result with
  | error e => rfl
  | ok outcome => rfl

/-- Whether a run is halted can be told from its entries without what was written. -/
theorem halted_congr {b' : Batch} (hpolicy : b'.policy = b.policy)
    (h : (b'.run s jobs).2.jobs.map JobReport.forecast =
      (b.run s jobs).2.jobs.map JobReport.forecast) : b'.Halted s jobs ↔ b.Halted s jobs := by
  have hstatuses :
      (b'.run s jobs).2.jobs.map (·.status) = (b.run s jobs).2.jobs.map (·.status) := by
    have := congrArg (List.map (·.status)) h
    simpa only [List.map_map, Function.comp_def, JobReport.forecast] using this
  have hmem : ∀ {b : Batch}, b.Halted s jobs ↔
      b.policy = .failFast ∧ .failed ∈ (b.run s jobs).2.jobs.map (·.status) := by
    simp only [Halted, List.mem_map, implies_true]
  rw [hmem, hmem, hpolicy, hstatuses]

theorem forecast_jobs (hs : s.IsTree) (hlinks : s.LinkFree) (hapart : b.JobsApart s jobs)
    (hwrites : b.NoWriteFails s jobs) :
    (b.dry.run s jobs).2.jobs.map JobReport.forecast =
      (b.run s jobs).2.jobs.map JobReport.forecast := by
  induction jobs using List.reverseRecOn with
  | nil => rfl
  | append_singleton jobs job ih =>
    obtain ⟨hfront, -, hlast⟩ := List.pairwise_append.1 hapart
    have hentries := ih hfront hwrites.of_concat
    have hhalted : b.dry.Halted s jobs ↔ b.Halted s jobs := halted_congr rfl hentries
    simp only [run_concat, report, List.map_append, List.map_singleton, hentries]
    congr 2
    by_cases h : b.Halted s jobs
    · rw [next_of_halted h, next_of_halted (hhalted.2 h)]
      rfl
    -- The file is the same for both, because the jobs in front stay out of its way.
    have hsame := (looksSame_run hs hlinks hfront hwrites.of_concat).2.2 (job.target b.root)
      fun x hx => hlast x hx job (by simp)
    have hread := readText_congr (hsame.find?_eq hlinks)
    simp only [next_of_not_halted h, next_of_not_halted (mt hhalted.1 h), forecast_entry, attempt,
      run_dry_fst, target_dry_root]
    exact congrArg _ (forecast_editFile hread fun e => hwrites.refuses h)

theorem forecast_report (b : Batch) (entries : List JobReport) :
    (b.report entries).forecast = b.dry.report (entries.map JobReport.forecast) := by
  simp only [BatchReport.forecast, report, List.all_map, Function.comp_def, JobReport.forecast]
  rfl

end Batch

/-- A dry run foretells the real run. It fails for a file where the real run fails before it writes,
and its outcome is the real one, but for what tells that the file was written. So is its report on
a batch whose jobs stay out of each other's way. In any case a dry run leaves the store alone. -/
theorem dryRun_forecast :
    (∀ (s : Store) options path edits,
      (s.editFile options.dry path edits).1 = s ∧
      (∀ e, (s.editFile options.dry path edits).2 = .error e ↔
        (s.editFile options path edits).2 = .error e ∧ Refuses s path edits e) ∧
      ∀ outcome, (s.editFile options path edits).2 = .ok outcome →
        ∃ outcome', (s.editFile options.dry path edits).2 = .ok outcome' ∧
          outcome'.forecast = outcome.forecast) ∧
    ∀ (b : Batch) s jobs, (b.dry.run s jobs).1 = s ∧
      (s.IsTree → s.LinkFree → b.JobsApart s jobs → b.NoWriteFails s jobs →
        (b.dry.run s jobs).2.forecast = (b.run s jobs).2.forecast) := by
  refine ⟨fun s options path edits => ⟨editFile_dry_fst s options path edits, fun e =>
    editFile_dry_eq_error_iff, fun outcome => exists_forecast_of_ok⟩, fun b s jobs =>
      ⟨Batch.run_dry_fst b s jobs, fun hs hlinks hapart hwrites => ?_⟩⟩
  have hentries := Batch.forecast_jobs hs hlinks hapart hwrites
  have hreport : ∀ b : Batch, (b.run s jobs).2 = b.report (b.run s jobs).2.jobs := fun _ => rfl
  rw [hreport b, hreport b.dry, Batch.forecast_report, Batch.forecast_report, hentries]
  rfl

/-- Of two jobs, the first one is applied in a dry run as in the real run. The second one fails,
because there is no `x` in its file. -/
theorem dryRun_forecast_two_jobs :
    let s := ((Store.root []).put ["a"] (.file ⟨"x".toUTF8, 0o600, false⟩)).put ["b"]
      (.file ⟨"z".toUTF8, 0o600, false⟩)
    let b : Batch := ⟨⟨"/"⟩, .keepGoing, ⟨7, false⟩⟩
    let edits : List Edit := [.insertBefore "x" "y"]
    let jobs : List Job := [⟨"a", edits⟩, ⟨"./b", edits⟩]
    s.IsTree ∧ s.LinkFree ∧ b.JobsApart s jobs ∧ b.NoWriteFails s jobs ∧
      (b.run s jobs).2.jobs.map (·.status) = [.applied, .failed] ∧
      (b.dry.run s jobs).2.forecast = (b.run s jobs).2.forecast := by
  intro s b edits jobs
  have ha : IsName "a" := by decide
  have hb : IsName "b" := by decide
  have hs : s.IsTree :=
    ((isTree_root []).put (node?_nil _) ha (by decide) (fileOrNone_of_none rfl)).put (node?_nil _)
      hb (by decide) (fileOrNone_of_none rfl)
  have hmade : AddsNoLink (.root []) s := (addsNoLink_put (by simp)).trans (addsNoLink_put (by simp))
  have hlinks : s.LinkFree := hmade.linkFree (linkFree_root [])
  have hapart : b.JobsApart s jobs := List.pairwise_pair.2 fun l f hfind => by
    have hfound : s.find? (Job.target b.root ⟨"a", edits⟩).text =
      .ok (["a"], .file ⟨"x".toUTF8, 0o600, false⟩) := by decide +kernel
    rw [hfound] at hfind
    cases hfind
    decide +kernel
  have hstatuses : (b.run s jobs).2.jobs.map (·.status) = [.applied, .failed] := by
    decide +kernel
  have hwrites : b.NoWriteFails s jobs := fun i job hjob hfailed => by
    rw [statusAt?, ← List.getElem?_map, hstatuses] at hfailed
    obtain rfl : i = 1 := by
      rcases i with _ | _ | i <;> simp at hfailed ⊢
    obtain rfl : ⟨"./b", edits⟩ = job := by simpa [jobs] using hjob
    have hread : (b.run s (jobs.take 1)).1.readText (Job.target b.root ⟨"./b", edits⟩) =
      .ok "z" := by decide +kernel
    have hedits : Edit.applyAll "z" edits = .error ⟨1, .markerNotFound "x" 1 0⟩ := by
      decide +kernel
    exact ⟨_, .edit hread hedits⟩
  exact ⟨hs, hlinks, hapart, hwrites, hstatuses,
    (dryRun_forecast.2 b s jobs).2 hs hlinks hapart hwrites⟩

end BlockEdit
