import BlockEdit.Proofs.Store.SameWays
import BlockEdit.Proofs.Store.Write

/-!
# The course of a replacement in any tree

Whatever stands in the place of a lock, and whether or not a temporary file is left from before, a
replacement alters files at three places at most (`footprint`), and when it succeeds its target has
the new bytes. `course_step` shows this of one step, which is carried out or refused, and
`course_finish` of all of them; `write_spec` says it of writing to a path that leads to a file.

The one thing that must not be there is a link in the place of the temporary file: the new bytes
would go where it leads, and the link would take the place of the target.
-/

namespace BlockEdit

namespace Replacement

open Store

variable {r : Replacement} {s₀ s s' : Store} {p : Spot} {stage next : Stage} {l : Location}

/-- The places where a replacement alters files: those of its target and of its temporary file, and
the one to which the path of its lock leads. -/
def footprint (r : Replacement) (s₀ : Store) (p : Spot) : Set Location :=
  {l | l = p.target ∨ l = p.temporary r.process ∨ s₀.locate? true r.lockPath = .ok l}

/-- The target of the replacement is a file, and its temporary file is not a link. -/
structure Overwrites (r : Replacement) (s₀ : Store) (p : Spot) : Prop extends Concerns r s₀ p where
  file : ∃ f, s₀.node? p.target = some (.file f)
  temporary_ne_link : ∀ target, s₀.node? (p.temporary r.process) ≠ some (.link target)

/-- What has been achieved at a stage: a temporary file, one with the new bytes, or a target with
the new bytes. -/
def Achieved (r : Replacement) (p : Spot) (s : Store) : Stage → Prop
  | .fillTemporary => ∃ g, s.node? (p.temporary r.process) = some (.file g)
  | .setMode | .flush | .moveIntoPlace =>
    ∃ g, s.node? (p.temporary r.process) = some (.file g) ∧ g.bytes = r.bytes
  | .releaseLock (.ok ()) | .finished (.ok ()) =>
    ∃ g, s.node? p.target = some (.file g) ∧ g.bytes = r.bytes
  | _ => True

/-- The store and the stage of a replacement that began in the store `s₀`. -/
structure Course (r : Replacement) (s₀ : Store) (p : Spot) (s : Store) (stage : Stage) : Prop where
  alters : Alters (r.footprint s₀ p) s₀ s
  achieved : r.Achieved p s stage

theorem course_openLock (s₀ : Store) (p : Spot) : Course r s₀ p s₀ .openLock :=
  ⟨.refl _ s₀, trivial⟩

/-! ### Where the paths of a replacement lead -/

section Paths

variable (ho : Overwrites r s₀ p) (ha : Alters (r.footprint s₀ p) s₀ s)

include ha

theorem mem_footprint_of_lockPath (hl : s.locate? true r.lockPath = .ok l) :
    l ∈ r.footprint s₀ p :=
  .inr (.inr (ha.sameWays.locate?_eq_ok_iff.1 hl))

include ho

theorem eq_temporary_of_locate? {follow : Bool}
    (hl : s.locate? follow r.temporaryPath = .ok l) : l = p.temporary r.process := by
  rw [ha.sameWays.locate?_eq_ok_iff,
    ho.locate?_temporary follow (.refl s₀) ho.temporary_ne_link] at hl
  cases hadmits : admits p.folder (temporaryName r.process p.name) with
  | error fault => rw [hadmits] at hl; cases hl
  | ok _ => rw [hadmits] at hl; exact (Except.ok.inj hl).symm

theorem eq_target_of_locate? (hl : s.locate? false r.target = .ok l) : l = p.target := by
  rw [ha.sameWays.locate?_eq_ok_iff, ho.locate?_target (.refl s₀)] at hl
  cases hadmits : admits p.folder p.name with
  | error fault => rw [hadmits] at hl; cases hl
  | ok _ => rw [hadmits] at hl; exact (Except.ok.inj hl).symm

end Paths

/-! ### The steps -/

section Steps

variable (ho : Overwrites r s₀ p)

theorem Course.proceed {result : Except Fault Store} {path : String} {failed : StoreError → Stage}
    (ha : Alters (r.footprint s₀ p) s₀ s) (hfailed : ∀ e s, r.Achieved p s (failed e))
    (hok : ∀ s', result = .ok s' → Course r s₀ p s' next) :
    Course r s₀ p (proceed s result next path failed).1 (proceed s result next path failed).2 := by
  cases result with
  | ok s' => exact hok s' rfl
  | error fault => exact ⟨ha, hfailed _ _⟩

theorem Course.openLock_step (hc : Course r s₀ p s .openLock) :
    Course r s₀ p (r.perform s .openLock).1 (r.perform s .openLock).2 := by
  rw [perform]
  refine .proceed hc.alters (fun _ _ => trivial) fun s' h => ?_
  cases hopen : s.openFile r.lockPath with
  | error fault => rw [hopen] at h; cases h
  | ok opened =>
    obtain ⟨s'', l, f⟩ := opened
    rw [hopen] at h
    cases h
    obtain ⟨hl, halters, -⟩ := alters_openFile hopen
    exact ⟨hc.alters.trans (halters.of_mem (mem_footprint_of_lockPath hc.alters hl)), trivial⟩

theorem Course.takeLock_step (hc : Course r s₀ p s .takeLock) :
    Course r s₀ p (r.perform s .takeLock).1 (r.perform s .takeLock).2 := by
  rw [perform, takeLock]
  split
  · next l f hfind =>
    split
    · exact ⟨hc.alters, trivial⟩
    · obtain ⟨hl, hnode⟩ := find?_eq_ok_iff.1 hfind
      have halters := alters_put (f := { f with locked := true }) hl (fileOrNone_of_file hnode)
      exact ⟨hc.alters.trans (halters.of_mem (mem_footprint_of_lockPath hc.alters hl)), trivial⟩
  · exact ⟨hc.alters, trivial⟩

/-- The lock is released, which changes no bytes. -/
theorem Course.releaseLock_step {result : Except StoreError Unit}
    (hc : Course r s₀ p s (.releaseLock result)) :
    Course r s₀ p (r.perform s (.releaseLock result)).1 (r.perform s (.releaseLock result)).2 := by
  rw [perform, unlock]
  cases hchange : s.changeFile r.lockPath fun file => { file with locked := false } with
  | error fault => exact ⟨hc.alters, by cases result <;> exact hc.achieved⟩
  | ok s' =>
    obtain ⟨l, f, hl, hnode, halters, hnode'⟩ := alters_changeFile hchange
    refine ⟨hc.alters.trans (halters.of_mem (mem_footprint_of_lockPath hc.alters hl)), ?_⟩
    cases result with
    | error e => trivial
    | ok _ =>
      obtain ⟨g, hg, hbytes⟩ := hc.achieved
      by_cases hne : p.target = l
      · subst hne
        obtain rfl : f = g := by simpa [hnode] using hg
        exact ⟨_, hnode', hbytes⟩
      · exact ⟨g, by rw [halters.frame _ hne, hg], hbytes⟩

theorem temporary_mem_footprint : p.temporary r.process ∈ r.footprint s₀ p := .inr (.inl rfl)

include ho

theorem Course.openTemporary_step (hc : Course r s₀ p s .openTemporary) :
    Course r s₀ p (r.perform s .openTemporary).1 (r.perform s .openTemporary).2 := by
  rw [perform]
  refine .proceed hc.alters (fun _ _ => trivial) fun s' h => ?_
  unfold openTemporary at h
  split at h
  · cases h
  · next s'' l f hopen =>
    cases h
    obtain ⟨hl, halters, hnode⟩ := alters_openFile hopen
    obtain rfl := eq_temporary_of_locate? ho hc.alters hl
    have hfile := fileOrNone_of_file hnode
    have halters' := alters_put (f := { f with bytes := .empty })
      (halters.sameWays.locate?_eq_ok_iff.2 hl) hfile
    exact ⟨hc.alters.trans ((halters.trans halters').of_mem temporary_mem_footprint),
      _, node?_put_self hfile.ne_nil⟩

/-- A change to the temporary file. -/
theorem changeFile_temporaryPath {change : File → File} (ha : Alters (r.footprint s₀ p) s₀ s)
    (h : s.changeFile r.temporaryPath change = .ok s') :
    Alters (r.footprint s₀ p) s₀ s' ∧ ∃ g, s.node? (p.temporary r.process) = some (.file g) ∧
      s'.node? (p.temporary r.process) = some (.file (change g)) := by
  obtain ⟨l, f, hl, hnode, halters, hnode'⟩ := alters_changeFile h
  obtain rfl := eq_temporary_of_locate? ho ha hl
  exact ⟨ha.trans (halters.of_mem temporary_mem_footprint), f, hnode, hnode'⟩

theorem Course.fillTemporary_step (hc : Course r s₀ p s .fillTemporary) :
    Course r s₀ p (r.perform s .fillTemporary).1 (r.perform s .fillTemporary).2 := by
  rw [perform]
  refine .proceed hc.alters (fun _ _ => trivial) fun s' h => ?_
  obtain ⟨halters, g, -, hnode⟩ := changeFile_temporaryPath ho hc.alters h
  exact ⟨halters, _, hnode, rfl⟩

theorem Course.setMode_step (hc : Course r s₀ p s .setMode) :
    Course r s₀ p (r.perform s .setMode).1 (r.perform s .setMode).2 := by
  rw [perform]
  refine .proceed hc.alters (fun _ _ => trivial) fun s' h => ?_
  obtain ⟨halters, g, hnode, hnode'⟩ := changeFile_temporaryPath ho hc.alters h
  obtain ⟨g', hg', hbytes⟩ := hc.achieved
  obtain rfl : g = g' := by simpa [hnode] using hg'
  exact ⟨halters, _, hnode', hbytes⟩

theorem Course.moveIntoPlace_step (hc : Course r s₀ p s .moveIntoPlace) :
    Course r s₀ p (r.perform s .moveIntoPlace).1 (r.perform s .moveIntoPlace).2 := by
  rw [perform]
  refine .proceed hc.alters (fun _ _ => trivial) fun s' h => ?_
  obtain ⟨g, hg, hbytes⟩ := hc.achieved
  obtain ⟨old, new, n, hold, hnew, hn, -, hmoved⟩ := rename_eq_ok h
  obtain rfl := eq_temporary_of_locate? ho hc.alters hold
  obtain rfl := eq_target_of_locate? ho hc.alters hnew
  obtain rfl : .file g = n := by simpa [hg] using hn
  obtain ⟨heq, -⟩ | ⟨-, rfl⟩ := hmoved
  · exact absurd heq Spot.temporary_ne_target.symm
  have herase := alters_erase (fileOrNone_of_file hg)
  have halters := hc.alters.trans (herase.of_mem temporary_mem_footprint)
  -- A file stood in the place of the target from the beginning.
  obtain ⟨f, hf⟩ := ho.file
  have hfile := halters.sameWays.fileOrNone_iff.2 (fileOrNone_of_file hf)
  have hput := alters_put (f := g) (herase.sameWays.locate?_eq_ok_iff.2 hnew) hfile
  exact ⟨halters.trans (hput.of_mem (.inl rfl)), g, node?_put_self hfile.ne_nil, hbytes⟩

theorem Course.removeTemporary_step {e : StoreError} (hc : Course r s₀ p s (.removeTemporary e)) :
    Course r s₀ p (r.perform s (.removeTemporary e)).1 (r.perform s (.removeTemporary e)).2 := by
  refine ⟨?_, trivial⟩
  rw [perform, remove]
  split
  · exact hc.alters
  · next l hl =>
    obtain rfl := eq_temporary_of_locate? ho hc.alters hl
    split
    · exact hc.alters
    · next hdirectory =>
      have hfile : s.FileOrNone (p.temporary r.process) :=
        ⟨hdirectory, fun target hlink =>
          ho.temporary_ne_link target ((hc.alters.sameWays.link _ _).1 hlink)⟩
      exact hc.alters.trans ((alters_erase hfile).of_mem temporary_mem_footprint)

/-- A replacement keeps its course at each step that is carried out. -/
theorem course_perform (hc : Course r s₀ p s stage) :
    Course r s₀ p (r.perform s stage).1 (r.perform s stage).2 := by
  cases stage with
  | openLock => exact hc.openLock_step
  | takeLock => exact hc.takeLock_step
  | openTemporary => exact hc.openTemporary_step ho
  | fillTemporary => exact hc.fillTemporary_step ho
  | setMode => exact hc.setMode_step ho
  | flush => exact ⟨hc.alters, hc.achieved⟩
  | moveIntoPlace => exact hc.moveIntoPlace_step ho
  | removeTemporary e => exact hc.removeTemporary_step ho
  | releaseLock result => exact hc.releaseLock_step
  | finished result => exact hc

/-- A step that is refused leaves some bytes in the temporary file at most. -/
theorem Course.refused (hc : Course r s₀ p s stage) (hrequest : r.request? stage ≠ none)
    (arrived : Nat) (e : StoreError) :
    Course r s₀ p (r.remnant s arrived stage) (stage.refused e) := by
  refine ⟨?_, ?_⟩
  · unfold remnant
    split
    · split
      · exact hc.alters
      · next s' hfill => exact (changeFile_temporaryPath ho hc.alters hfill).1
    · exact hc.alters
  · cases stage with
    | removeTemporary e | releaseLock result | finished result => exact absurd rfl hrequest
    | _ => trivial

/-- A replacement keeps its course at each step. -/
theorem course_step (hc : Course r s₀ p s stage) :
    Course r s₀ p (r.step s stage).1 (r.step s stage).2 := by
  obtain hgranted | ⟨refusal, hrequest, hrefused⟩ := step_cases r s stage
  · rw [hgranted]
    exact course_perform ho hc
  · rw [hrefused]
    exact hc.refused ho hrequest refusal.arrived (r.refusedError refusal.fault stage)

theorem course_finish (hc : Course r s₀ p s stage) :
    Course r s₀ p (r.finish s stage).1 (.finished (r.finish s stage).2) :=
  finish_invariant (P := Course r s₀ p) r (fun _ _ => course_step ho) hc

end Steps

end Replacement

/-! ### Writing to a path -/

namespace Store

variable {s s' : Store} {process : Nat} {path : Path} {l k : Location} {f : File}
  {bytes : ByteArray}

/-- No link stands in the place of the temporary file with which a process replaces the file to
which a path leads. -/
def NoTemporaryLink (s : Store) (process : Nat) (path : Path) : Prop :=
  ∀ l f, s.find? path.text = .ok (l, .file f) →
    ∀ target, s.node? (temporaryOf process l) ≠ some (.link target)

/-- The places where a process that writes to the file at `l` alters files. -/
def writePlaces (s : Store) (process : Nat) (l : Location) : Set Location :=
  {k | k = l ∨ k = temporaryOf process l ∨ s.locate? true (pathOf l ++ ".lock") = .ok k}

/-- In a tree, the path of the lock of a file leads to a place beside the file, unless there is a
link. -/
theorem eq_lockOf_of_locate? (hs : s.IsTree) (hl : s.node? l = some (.file f))
    (hlock : ∀ target, s.node? (lockOf l) ≠ some (.link target))
    (hk : s.locate? true (pathOf l ++ ".lock") = .ok k) : k = lockOf l := by
  obtain ⟨dir, name, rfl⟩ := (List.eq_nil_or_concat' l).resolve_left (ne_nil_of_file hl)
  have hconcerns := hs.concerns .empty none 0 hl
  have hlocate := hconcerns.locate?_lock (.refl s) (by simpa [Replacement.Spot.lock] using hlock)
  rw [Replacement.lockPath] at hlocate
  rw [hlocate] at hk
  cases hadmits : admits (folderOf dir) (lockName name) with
  | error fault => rw [hadmits] at hk; cases hk
  | ok _ =>
    rw [hadmits] at hk
    rw [lockOf_concat]
    exact (Except.ok.inj hk).symm

/-- Writing to a file alters files at three places at most, and on success the file has the new
bytes. -/
theorem write_spec (bytes : ByteArray) (hs : s.IsTree)
    (hfind : s.find? path.text = .ok (l, .file f))
    (htemporary : ∀ target, s.node? (temporaryOf process l) ≠ some (.link target)) :
    Alters (s.writePlaces process l) s (s.write process path bytes).1 ∧
      ((s.write process path bytes).2 = .ok () →
        ∃ g, (s.write process path bytes).1.node? l = some (.file g) ∧ g.bytes = bytes) := by
  have hl := (find?_eq_ok_iff.1 hfind).2
  obtain ⟨dir, name, rfl⟩ := (List.eq_nil_or_concat' l).resolve_left (ne_nil_of_file hl)
  have ho : Replacement.Overwrites ⟨pathOf (dir ++ [name]), bytes, some f.mode, process⟩ s
      ⟨folderOf dir, dir, name⟩ :=
    { toConcerns := hs.concerns bytes (some f.mode) process hl
      file := ⟨f, hl⟩
      temporary_ne_link := by simpa [Replacement.Spot.temporary] using htemporary }
  rw [write_eq_finish bytes hfind]
  obtain ⟨halters, hachieved⟩ := Replacement.course_finish ho (Replacement.course_openLock _ _)
  refine ⟨halters.mono fun k hk => ?_, fun hok => ?_⟩
  · simpa [Replacement.footprint, writePlaces, Replacement.Spot.target,
      Replacement.Spot.temporary, Replacement.lockPath] using hk
  · rw [hok] at hachieved
    exact hachieved

/-- What writing to a path whose text was read does to the store. -/
theorem write_alters {text : String} {result : Except StoreError Unit} (hs : s.IsTree)
    (htemporary : s.NoTemporaryLink process path) (hread : s.readText path = .ok text)
    (hwrite : s.write process path bytes = (s', result)) :
    ∃ l f, s.find? path.text = .ok (l, .file f) ∧ Alters (s.writePlaces process l) s s' ∧
      (result = .ok () → ∃ g, s'.node? l = some (.file g) ∧ g.bytes = bytes) := by
  obtain ⟨l, f, hfind, -⟩ := readText_eq_ok_iff.1 hread
  have hspec := write_spec bytes hs hfind (htemporary l f hfind)
  rw [hwrite] at hspec
  exact ⟨l, f, hfind, hspec⟩

/-- What was written is read again. -/
theorem readText_of_write {old new : String} (hs : s.IsTree)
    (htemporary : s.NoTemporaryLink process path) (hread : s.readText path = .ok old)
    (hwrite : s.write process path new.toUTF8 = (s', .ok ())) : s'.readText path = .ok new := by
  obtain ⟨l, f, hfind, halters, hwritten⟩ := write_alters hs htemporary hread hwrite
  obtain ⟨g, hg, hbytes⟩ := hwritten rfl
  have hlocate := halters.sameWays.locate?_eq_ok_iff.2 (find?_eq_ok_iff.1 hfind).1
  exact readText_eq_ok_iff.2 ⟨l, g, find?_eq_ok_iff.2 ⟨hlocate, hg⟩, hbytes⟩

end Store

end BlockEdit
