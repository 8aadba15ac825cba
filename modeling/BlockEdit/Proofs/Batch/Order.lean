import BlockEdit.Proofs.Batch.Forecast
import BlockEdit.Proofs.Batch.Locality

/-!
# Jobs in another order

Where the targets of jobs stay out of each other's way and every job is run, each of them comes to
what it would come to if it were alone (`next_eq_alone`): it looks at no place at which another one
writes. So the store that is left is described without the order of the jobs (`Settled`), and when
the jobs are run in another order, the same store is left and the entries are the same
(`run_perm`).
-/

namespace BlockEdit

namespace Store

variable {s : Store} {process : Nat} {path path' : Path} {k l l' : Location}

theorem lockName_inj {name name' : String} (h : lockName name = lockName name') : name = name' := by
  have := congrArg String.toList h
  rw [toList_lockName, toList_lockName, List.append_cancel_right_eq] at this
  exact String.toList_inj.1 this

theorem temporaryName_inj {name name' : String}
    (h : temporaryName process name = temporaryName process name') : name = name' := by
  have := congrArg String.toList h
  rw [toList_temporaryName, toList_temporaryName, List.cons.injEq,
    List.append_cancel_right_eq] at this
  exact String.toList_inj.1 this.2

/-- Different files have different lock files and different temporary files. -/
theorem eq_of_beside_eq {name : String → String} (hname : ∀ {x y}, name x = name y → x = y)
    (hl : l ≠ []) (hl' : l' ≠ [])
    (h : l.dropLast ++ [name (l.getLastD "")] = l'.dropLast ++ [name (l'.getLastD "")]) :
    l = l' := by
  obtain ⟨dir, x, rfl⟩ := (List.eq_nil_or_concat' l).resolve_left hl
  obtain ⟨dir', y, rfl⟩ := (List.eq_nil_or_concat' l').resolve_left hl'
  obtain ⟨hdir, hxy⟩ := List.append_inj' h rfl
  simp only [List.dropLast_concat, List.getLastD_concat, List.cons.injEq, and_true] at hdir hxy
  rw [hdir, hname hxy]

/-- Writers look at different places if their paths stay out of each other's way. -/
theorem disjoint_writerPlaces (hlinks : s.LinkFree) (h : s.Apart process path path')
    (h' : s.Apart process path' path) (hk : k ∈ s.writerPlaces process path) :
    k ∉ s.writerPlaces process path' := by
  rintro ⟨l', f', hfind', hk'⟩
  obtain ⟨l, f, hfind, hk⟩ := hk
  obtain ⟨hlocate, hl⟩ := find?_eq_ok_iff.1 hfind
  obtain ⟨hlocate', hl'⟩ := find?_eq_ok_iff.1 hfind'
  have hne : l ≠ l' := fun heq => (h l f hfind).1 (heq ▸ hlocate')
  -- A file of the one is no lock file and no temporary file of the other, where a directory is.
  have hbeside : ¬(l' = lockOf l ∨ l' = temporaryOf process l) := fun hcase => by
    have := (h l f hfind).2 l' (mem_wayOf_of_locate? hlinks hlocate') hcase
    rw [hl'] at this
    cases this
  have hbeside' : ¬(l = lockOf l' ∨ l = temporaryOf process l') := fun hcase => by
    have := (h' l' f' hfind').2 l (mem_wayOf_of_locate? hlinks hlocate) hcase
    rw [hl] at this
    cases this
  rcases hk with rfl | rfl | rfl
  · exact hk'.elim hne hbeside'
  · rcases hk' with heq | heq | heq
    · exact hbeside (.inl heq.symm)
    · exact hne (eq_of_beside_eq lockName_inj (ne_nil_of_file hl) (ne_nil_of_file hl') heq)
    · exact temporaryOf_ne_lockOf process l' l heq.symm
  · rcases hk' with heq | heq | heq
    · exact hbeside (.inr heq.symm)
    · exact temporaryOf_ne_lockOf process l l' heq
    · exact hne (eq_of_beside_eq temporaryName_inj (ne_nil_of_file hl) (ne_nil_of_file hl') heq)

end Store

namespace Batch

open Store

section

variable (b : Batch) (s : Store)

/-- The targets of jobs stay out of the way of all others. -/
def JobsDisjoint (jobs : List Job) : Prop :=
  jobs.Pairwise fun job other =>
    s.Apart b.options.process (job.target b.root) (other.target b.root) ∧
      s.Apart b.options.process (other.target b.root) (job.target b.root)

/-- A job that is run before all others. -/
def alone (job : Job) : Store × Except BatchError FileOutcome :=
  s.editFile b.options (job.target b.root) job.edits

/-- The places at which a job looks when it writes. -/
def jobPlaces (job : Job) : Set Location := s.writerPlaces b.options.process (job.target b.root)

/-- The store `t` is what the jobs leave of `s`: at the places of each of them stands what it leaves
there if it is alone, and nothing else has changed. -/
structure Settled (jobs : List Job) (t : Store) : Prop where
  sameWays : SameWays s t
  isTree : t.IsTree
  done : ∀ job ∈ jobs, AgreeOn (b.jobPlaces s job) (b.alone s job).1 t
  rest : ∀ k, (∀ job ∈ jobs, k ∉ b.jobPlaces s job) → t.nodes[k]? = s.nodes[k]?

end

variable {b : Batch} {s t t' : Store} {jobs jobs' : List Job} {job : Job} {path : Path} {i i' : Nat}

/-- The jobs and their places settle what is left. -/
theorem Settled.eq (h : b.Settled s jobs t) (h' : b.Settled s jobs' t')
    (hmem : ∀ job, job ∈ jobs' ↔ job ∈ jobs) : t' = t := by
  have hways := h.sameWays.symm.trans h'.sameWays
  refine ext_nodes hways.workingDirectory hways.refuses fun k => ?_
  by_cases hk : ∃ job ∈ jobs, k ∈ b.jobPlaces s job
  · obtain ⟨job, hjob, hk⟩ := hk
    rw [h.done job hjob k hk, h'.done job ((hmem job).2 hjob) k hk]
  · have hout : ∀ job ∈ jobs, k ∉ b.jobPlaces s job := fun job hjob hk' => hk ⟨job, hjob, hk'⟩
    rw [h.rest k hout, h'.rest k fun job hjob => hout job ((hmem job).1 hjob)]

/-- A job that is alone leaves a file where its target was one. -/
theorem hasFileAt_alone (hs : s.IsTree) (hlinks : s.LinkFree) {l : Location} {f : File}
    (hfind : s.find? (job.target b.root).text = .ok (l, .file f)) :
    (b.alone s job).1.HasFileAt l :=
  (editFile_local hs hlinks (.refl s) rfl (.refl _ s)).file l ⟨f, hfind⟩
    ⟨f, (find?_eq_ok_iff.1 hfind).2⟩

/-- What the jobs leave looks the same to a path out of the way of which their targets stay. -/
theorem Settled.looksSame (h : b.Settled s jobs t) (hs : s.IsTree) (hlinks : s.LinkFree)
    (hapart : ∀ job ∈ jobs, s.Apart b.options.process (job.target b.root) path) :
    LooksSame path.text s t := by
  -- At a place of a job on the way there is its target, or else a directory.
  have hcases : ∀ k ∈ wayOf s.workingDirectory path.text, t.node? k = s.node? k ∨
      ∃ job ∈ jobs, ∃ f, s.find? (job.target b.root).text = .ok (k, .file f) := by
    intro k hk
    by_cases hplaces : ∃ job ∈ jobs, k ∈ b.jobPlaces s job
    · obtain ⟨job, hjob, l, f, hfind, rfl | hbeside⟩ := hplaces
      · exact .inr ⟨job, hjob, f, hfind⟩
      · have hdirectory := (hapart job hjob l f hfind).2 k hk hbeside
        exact .inl (((h.sameWays.directory k).2 hdirectory).trans hdirectory.symm)
    · left
      rw [node?, node?, h.rest k fun job hjob hk' => hplaces ⟨job, hjob, hk'⟩]
  refine ⟨h.sameWays.workingDirectory, fun k hk => ?_, fun k hk => ?_⟩
  · obtain hsame | ⟨job, hjob, f, hfind⟩ := hcases k hk
    · exact .inl hsame
    · obtain ⟨g, hg⟩ := hasFileAt_alone hs hlinks hfind
      have hdone := (h.done job hjob).node?_eq ⟨k, f, hfind, .inl rfl⟩
      exact .inr ⟨⟨f, (find?_eq_ok_iff.1 hfind).2⟩, g, hdone.trans hg⟩
  · obtain hsame | ⟨job, hjob, f, hfind⟩ := hcases k (mem_wayOf_of_locate? hlinks hk)
    · exact hsame
    · exact absurd hk (hapart job hjob k f hfind).1

/-- A further job does what it does alone. -/
theorem Settled.local_editFile (h : b.Settled s jobs t) (hs : s.IsTree) (hlinks : s.LinkFree)
    (hdisjoint : b.JobsDisjoint s (jobs ++ [job])) :
    Local (b.jobPlaces s job) (s.fileOf (job.target b.root)) t (b.alone s job)
      (t.editFile b.options (job.target b.root) job.edits) := by
  obtain ⟨-, -, hlast⟩ := List.pairwise_append.1 hdisjoint
  have hlooks := h.looksSame hs hlinks fun x hx => (hlast x hx job (by simp)).1
  refine editFile_local hs hlinks h.sameWays (hlooks.find?_eq hlinks) fun k hk => ?_
  refine h.rest k fun x hx => ?_
  obtain ⟨hapart, hapart'⟩ := hlast x hx job (by simp)
  exact disjoint_writerPlaces hlinks hapart' hapart hk

theorem Settled.concat (h : b.Settled s jobs t) (hs : s.IsTree) (hlinks : s.LinkFree)
    (hdisjoint : b.JobsDisjoint s (jobs ++ [job])) :
    b.Settled s (jobs ++ [job]) (t.editFile b.options (job.target b.root) job.edits).1 := by
  obtain ⟨hways, htree⟩ := (edited_editFile t b.options (job.target b.root) job.edits).sameWays
    h.isTree fun _ _ _ => h.sameWays.linkFree hlinks _
  have hlocal := h.local_editFile hs hlinks hdisjoint
  obtain ⟨-, -, hlast⟩ := List.pairwise_append.1 hdisjoint
  refine ⟨h.sameWays.trans hways, htree, fun x hx => ?_, fun k hk => ?_⟩
  · rcases List.mem_append.1 hx with hx | hx
    · intro k hk
      obtain ⟨hapart, hapart'⟩ := hlast x hx job (by simp)
      rw [hlocal.frame k (disjoint_writerPlaces hlinks hapart hapart' hk), h.done x hx k hk]
    · rw [List.mem_singleton.1 hx]
      exact hlocal.agree
  · rw [hlocal.frame k (hk job (by simp)), h.rest k fun x hx => hk x (by simp [hx])]

theorem settled_run (hs : s.IsTree) (hlinks : s.LinkFree) (hpolicy : b.policy = .keepGoing)
    (hdisjoint : b.JobsDisjoint s jobs) : b.Settled s jobs (b.run s jobs).1 := by
  induction jobs using List.reverseRecOn with
  | nil => exact ⟨.refl s, hs, by simp, fun _ _ => rfl⟩
  | append_singleton jobs job ih =>
    have hsettled := ih (List.pairwise_append.1 hdisjoint).1
    rw [run_concat]
    simp only [next_of_not_halted (not_halted_of_keepGoing hpolicy), attempt]
    exact hsettled.concat hs hlinks hdisjoint

/-- Each entry is that of the job alone. -/
theorem getElem?_jobs_eq_alone (hs : s.IsTree) (hlinks : s.LinkFree)
    (hpolicy : b.policy = .keepGoing) (hdisjoint : b.JobsDisjoint s jobs)
    (hjob : jobs[i]? = some job) :
    (b.run s jobs).2.jobs[i]? = some (entry (i + 1) (job.target b.root) (b.alone s job).2) := by
  have hfront : b.JobsDisjoint s (jobs.take i ++ [job]) := by
    have := hdisjoint.sublist (List.take_sublist (i + 1) jobs)
    rwa [List.take_add_one, hjob, Option.toList_some] at this
  have hsettled := settled_run hs hlinks hpolicy (List.pairwise_append.1 hfront).1
  have hi := (List.getElem?_eq_some_iff.1 hjob).1
  rw [getElem?_jobs_of_getElem? hjob, next_of_not_halted (not_halted_of_keepGoing hpolicy), attempt,
    (hsettled.local_editFile hs hlinks hfront).result, List.length_take_of_le hi.le]

/-- A batch that goes on after failures, and whose jobs stay out of each other's way, does not
depend on their order. In any order the same store is left, and the entries of the jobs differ in
their numbers alone. -/
theorem run_perm (hs : s.IsTree) (hlinks : s.LinkFree) (hpolicy : b.policy = .keepGoing)
    (hdisjoint : b.JobsDisjoint s jobs) (hperm : jobs.Perm jobs') :
    (b.run s jobs').1 = (b.run s jobs).1 ∧
      ∀ (i i' : Nat) job, jobs[i]? = some job → jobs'[i']? = some job →
        (b.run s jobs').2.jobs[i']? =
          (b.run s jobs).2.jobs[i]?.map fun report : JobReport =>
            { report with job := i' + 1 } := by
  have hdisjoint' : b.JobsDisjoint s jobs' :=
    (hperm.pairwise_iff fun {_ _} h => ⟨h.2, h.1⟩).1 hdisjoint
  refine ⟨?_, fun i i' job hjob hjob' => ?_⟩
  · exact (settled_run hs hlinks hpolicy hdisjoint).eq (settled_run hs hlinks hpolicy hdisjoint')
      fun job => hperm.mem_iff.symm
  · rw [getElem?_jobs_eq_alone hs hlinks hpolicy hdisjoint hjob,
      getElem?_jobs_eq_alone hs hlinks hpolicy hdisjoint' hjob', Option.map_some]
    cases (b.alone s job).2 with
    | error e => rfl
    | ok outcome => rfl

/-- Of two jobs, the second one fails because somebody holds the lock for its file. It does so as
well when it is the first one. -/
theorem run_perm_two_jobs :
    let s := (((Store.root []).put ["a"] (.file ⟨"x".toUTF8, 0o600, false⟩)).put ["b"]
      (.file ⟨"x".toUTF8, 0o644, false⟩)).put ["b.lock"] (.file ⟨.empty, 0o644, true⟩)
    let b : Batch := ⟨⟨"/"⟩, .keepGoing, ⟨7, false⟩⟩
    let edits : List Edit := [.insertBefore "x" "y"]
    let jobs : List Job := [⟨"a", edits⟩, ⟨"./b", edits⟩]
    let jobs' : List Job := [⟨"./b", edits⟩, ⟨"a", edits⟩]
    s.IsTree ∧ s.LinkFree ∧ b.JobsDisjoint s jobs ∧
      (b.run s jobs).2.jobs.map (·.status) = [.applied, .failed] ∧
      (b.run s jobs').1 = (b.run s jobs).1 ∧
      (b.run s jobs').2.jobs[0]? =
        (b.run s jobs).2.jobs[1]?.map fun report : JobReport => { report with job := 1 } := by
  intro s b edits jobs jobs'
  have ha : IsName "a" := by decide
  have hb : IsName "b" := by decide
  have hlock : IsName "b.lock" := by decide
  have hs : s.IsTree :=
    (((isTree_root []).put (node?_nil _) ha (by decide) (fileOrNone_of_none rfl)).put (node?_nil _)
      hb (by decide) (fileOrNone_of_none rfl)).put (node?_nil _) hlock (by decide)
        (fileOrNone_of_none rfl)
  have hmade : AddsNoLink (.root []) s :=
    ((addsNoLink_put (by simp)).trans (addsNoLink_put (by simp))).trans (addsNoLink_put (by simp))
  have hlinks : s.LinkFree := hmade.linkFree (linkFree_root [])
  have hdisjoint : b.JobsDisjoint s jobs := List.pairwise_pair.2 ⟨fun l f hfind => by
    have hfound : s.find? (Job.target b.root ⟨"a", edits⟩).text =
      .ok (["a"], .file ⟨"x".toUTF8, 0o600, false⟩) := by decide +kernel
    rw [hfound] at hfind
    cases hfind
    decide +kernel, fun l f hfind => by
    have hfound : s.find? (Job.target b.root ⟨"./b", edits⟩).text =
      .ok (["b"], .file ⟨"x".toUTF8, 0o644, false⟩) := by decide +kernel
    rw [hfound] at hfind
    cases hfind
    decide +kernel⟩
  have hperm : jobs.Perm jobs' := .swap _ _ _
  have hrun := run_perm hs hlinks rfl hdisjoint hperm
  exact ⟨hs, hlinks, hdisjoint, by decide +kernel, hrun.1, hrun.2 1 0 ⟨"./b", edits⟩ rfl rfl⟩

end Batch

end BlockEdit
