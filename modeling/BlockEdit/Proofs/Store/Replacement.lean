import BlockEdit.Proofs.Store.Beside

/-!
# The steps of a replacement

The files of a replacement stand in one directory: the target, the file whose lock guards it, and a
temporary file. `Site` says where, for a replacement that begins in a given store, and `Progress`
what the store is at each stage. A step is carried out (`progress_perform`), or the store refuses it
and the replacement gives up (`progress_refused`). So each step leads from one stage to another one
(`progress_step`), and a replacement ends in one of three ways (`progress_finish`): nothing has
changed, or there is a new file to hold the lock, or the target has been replaced as well.
-/

namespace BlockEdit

/-- The name of the file whose lock guards a file. -/
def lockName (name : String) : String := name ++ ".lock"

/-- The name of the temporary file with which a process replaces a file. -/
def temporaryName (process : Nat) (name : String) : String := "." ++ name ++ s!".{process}.tmp"

section Names

variable {name : String}

theorem toList_temporaryName (process : Nat) :
    (temporaryName process name).toList =
      '.' :: (name.toList ++ '.' :: (Nat.toDigits 10 process ++ ['.', 't', 'm', 'p'])) := by
  simp [temporaryName, toString]

theorem toList_lockName : (lockName name).toList = name.toList ++ ['.', 'l', 'o', 'c', 'k'] := by
  simp [lockName]

theorem isName_of_length {name : String} (hlength : 2 < name.toList.length)
    (hslash : '/' ∉ name.toList) : IsName name where
  ne_empty h := by simp [h] at hlength
  ne_here h := by simp [h] at hlength
  ne_up h := by simp [h] at hlength
  no_slash := hslash

theorem isName_lockName (h : '/' ∉ name.toList) : IsName (lockName name) := by
  refine isName_of_length ?_ ?_ <;> rw [toList_lockName]
  · simp
  · simp [h]

theorem isName_temporaryName (process : Nat) (h : '/' ∉ name.toList) :
    IsName (temporaryName process name) := by
  refine isName_of_length ?_ ?_ <;> rw [toList_temporaryName]
  · simp; omega
  · have hdigits : '/' ∉ Nat.toDigits 10 process := fun hmem => by
      have := Nat.isDigit_of_mem_toDigits (by decide) (by decide) hmem
      exact absurd this (by decide)
    simp [h, hdigits]

theorem lockName_ne : lockName name ≠ name := by
  intro h
  have := congrArg (·.toList.length) h
  simp [toList_lockName] at this

theorem temporaryName_ne (process : Nat) : temporaryName process name ≠ name := by
  intro h
  have := congrArg (·.toList.length) h
  simp [toList_temporaryName] at this
  omega

theorem temporaryName_ne_lockName (process : Nat) (name name' : String) :
    temporaryName process name ≠ lockName name' := by
  intro h
  have := congrArg (·.toList.reverse.head?) h
  simp [toList_temporaryName, toList_lockName] at this

end Names

namespace Store

/-- The place of the file whose lock guards the file at a place. -/
def lockOf (l : Location) : Location := l.dropLast ++ [lockName (l.getLastD "")]

/-- The place of the temporary file with which a process replaces the file at a place. -/
def temporaryOf (process : Nat) (l : Location) : Location :=
  l.dropLast ++ [temporaryName process (l.getLastD "")]

@[simp] theorem lockOf_concat (dir : Location) (name : String) :
    lockOf (dir ++ [name]) = dir ++ [lockName name] := by
  simp [lockOf]

@[simp] theorem temporaryOf_concat (process : Nat) (dir : Location) (name : String) :
    temporaryOf process (dir ++ [name]) = dir ++ [temporaryName process name] := by
  simp [temporaryOf]

theorem temporaryOf_ne_lockOf (process : Nat) (l l' : Location) :
    temporaryOf process l ≠ lockOf l' := fun h =>
  temporaryName_ne_lockName process _ _ (List.append_inj_right' h rfl |> List.singleton_inj.1)

/-- The store with a file to hold the lock for the file at a place. -/
def withLock (s : Store) (l : Location) : Store :=
  match s.node? (lockOf l) with
  | none => s.put (lockOf l) (.file .empty)
  | some _ => s

section WithLock

variable {s : Store} {l l' : Location}

theorem withLock_of_none (h : s.node? (lockOf l) = none) :
    s.withLock l = s.put (lockOf l) (.file .empty) := by
  rw [withLock, h]

theorem withLock_of_some {n : FileNode} (h : s.node? (lockOf l) = some n) : s.withLock l = s := by
  rw [withLock, h]

theorem keeps_withLock : Keeps s (s.withLock l) := by
  cases h : s.node? (lockOf l) with
  | none =>
    rw [withLock_of_none h]
    exact keeps_put (fileOrNone_of_none h)
  | some n =>
    rw [withLock_of_some h]
    exact .refl s

theorem node?_withLock_of_ne (h : l' ≠ lockOf l) : (s.withLock l).node? l' = s.node? l' := by
  cases hnode : s.node? (lockOf l) with
  | none =>
    rw [withLock_of_none hnode, node?_put_of_ne (fileOrNone_of_none hnode).ne_nil h]
  | some n => rw [withLock_of_some hnode]

end WithLock

end Store

namespace Replacement

open Store

/-- A name in a directory, and a folder that leads into that directory. -/
structure Spot where
  folder : List Char
  dir : Location
  name : String

namespace Spot

/-- The place of the target. -/
def target (p : Spot) : Location := p.dir ++ [p.name]

/-- The place of the file that guards the target. -/
def lock (p : Spot) : Location := p.dir ++ [lockName p.name]

/-- The place of the temporary file of a process. -/
def temporary (p : Spot) (process : Nat) : Location := p.dir ++ [temporaryName process p.name]

variable {p : Spot} {process : Nat}

@[simp] theorem lockOf_target : lockOf p.target = p.lock := lockOf_concat _ _

theorem lock_ne_nil : p.lock ≠ [] := by simp [lock]

theorem target_ne_nil : p.target ≠ [] := by simp [target]

theorem temporary_ne_nil : p.temporary process ≠ [] := by simp [temporary]

theorem lock_ne_target : p.lock ≠ p.target := by simp [lock, target, lockName_ne]

theorem temporary_ne_target : p.temporary process ≠ p.target := by
  simp [temporary, target, temporaryName_ne]

theorem temporary_ne_lock : p.temporary process ≠ p.lock := by
  simp [temporary, lock, temporaryName_ne_lockName]

end Spot

/-- The file that a replacement puts in the place of its target. -/
def newFile (r : Replacement) : File := ⟨r.bytes, r.mode.getD File.defaultMode, false⟩

/-- The replacement concerns the spot `p` of a store. -/
structure Concerns (r : Replacement) (s : Store) (p : Spot) : Prop where
  target : r.target = String.ofList (p.folder ++ p.name.toList)
  isName : IsName p.name
  reaches : Reaches s p.folder p.dir

/-- The replacement concerns the spot `p` of a store. No link stands in the place of the target or
of its lock file, and nothing in that of the temporary file. -/
structure Site (r : Replacement) (s : Store) (p : Spot) : Prop extends Concerns r s p where
  target_ne_link : ∀ target, s.node? p.target ≠ some (.link target)
  lock_ne_link : ∀ target, s.node? p.lock ≠ some (.link target)
  temporary : s.node? (p.temporary r.process) = none

section Paths

variable {r : Replacement} {s₀ s : Store} {p : Spot}

theorem lockPath_eq {folder : List Char} {name : String}
    (htarget : r.target = String.ofList (folder ++ name.toList)) :
    r.lockPath = String.ofList (folder ++ (lockName name).toList) := by
  rw [← String.toList_inj, Replacement.lockPath, htarget, toList_lockName]
  simp

theorem temporaryPath_eq {folder : List Char} {name : String} (hfolder : IsFolder folder)
    (hslash : '/' ∉ name.toList) (htarget : r.target = String.ofList (folder ++ name.toList)) :
    r.temporaryPath = String.ofList (folder ++ (temporaryName r.process name).toList) := by
  have hname : ∀ c ∈ name.toList.reverse, decide (c ≠ '/') = true := fun c hc => by
    have : c ≠ '/' := fun heq => hslash (heq ▸ List.mem_reverse.1 hc)
    simpa using this
  obtain ⟨htake, hdrop⟩ : folder.reverse.takeWhile (· ≠ '/') = [] ∧
      folder.reverse.dropWhile (· ≠ '/') = folder.reverse := by
    rcases hfolder with hnil | ⟨front, hfront⟩
    · simp [hnil]
    · simp [hfront]
  rw [← String.toList_inj, Replacement.temporaryPath, htarget, toList_temporaryName]
  simp only [String.toList_ofList, List.reverse_append]
  rw [List.takeWhile_append_of_pos hname, List.dropWhile_append_of_pos hname, htake, hdrop]
  simp [toString]

theorem Concerns.lockPath (h : Concerns r s₀ p) :
    r.lockPath = String.ofList (p.folder ++ (lockName p.name).toList) :=
  lockPath_eq h.target

theorem Concerns.temporaryPath (h : Concerns r s₀ p) :
    r.temporaryPath = String.ofList (p.folder ++ (temporaryName r.process p.name).toList) :=
  temporaryPath_eq h.reaches.1 h.isName.no_slash h.target

theorem Concerns.locate?_lock (h : Concerns r s₀ p) (hs : KeepsWays s₀ s)
    (hlink : ∀ target, s.node? p.lock ≠ some (.link target)) :
    s.locate? true r.lockPath = (admits p.folder (lockName p.name)).map fun _ => p.lock := by
  rw [h.lockPath]
  exact locate?_beside (h.reaches.mono hs) (isName_lockName h.isName.no_slash) fun _ => Or.inr hlink

theorem Concerns.locate?_temporary (follow : Bool) (h : Concerns r s₀ p) (hs : KeepsWays s₀ s)
    (hlink : ∀ target, s.node? (p.temporary r.process) ≠ some (.link target)) :
    s.locate? follow r.temporaryPath =
      (admits p.folder (temporaryName r.process p.name)).map fun _ => p.temporary r.process := by
  rw [h.temporaryPath]
  exact locate?_beside (h.reaches.mono hs) (isName_temporaryName _ h.isName.no_slash)
    fun _ => Or.inr hlink

theorem Concerns.locate?_target (h : Concerns r s₀ p) (hs : KeepsWays s₀ s) :
    s.locate? false r.target = (admits p.folder p.name).map fun _ => p.target := by
  rw [h.target]
  exact locate?_beside (h.reaches.mono hs) h.isName fun _ => Or.inl rfl

end Paths

/-! ### What the store is at each stage -/

/-- The store in which the replacement holds the lock: the lock file `f` was free, in the store from
before or as a new file, and now it is locked. -/
structure Held (s₀ : Store) (p : Spot) (f : File) (s : Store) : Prop where
  admits : admits p.folder (lockName p.name) = .ok ()
  lock : (s₀.withLock p.target).node? p.lock = some (.file f)
  free : f.locked = false
  eq : s = (s₀.withLock p.target).put p.lock (.file { f with locked := true })

/-- The store and the stage of a replacement that began in the store `s₀`. -/
inductive Progress (r : Replacement) (s₀ : Store) (p : Spot) : Store → Stage → Prop
  | openLock : Progress r s₀ p s₀ .openLock
  | takeLock : Progress r s₀ p (s₀.withLock p.target) .takeLock
  | openTemporary {f s} (hs : Held s₀ p f s) : Progress r s₀ p s .openTemporary
  | fillTemporary {f s} (hs : Held s₀ p f s)
      (ha : Store.admits p.folder (temporaryName r.process p.name) = .ok ()) :
      Progress r s₀ p (s.put (p.temporary r.process) (.file .empty)) .fillTemporary
  | setMode {f s} (hs : Held s₀ p f s)
      (ha : Store.admits p.folder (temporaryName r.process p.name) = .ok ()) :
      Progress r s₀ p (s.put (p.temporary r.process) (.file { File.empty with bytes := r.bytes }))
        .setMode
  | flush {f s} (hs : Held s₀ p f s)
      (ha : Store.admits p.folder (temporaryName r.process p.name) = .ok ()) :
      Progress r s₀ p (s.put (p.temporary r.process) (.file r.newFile)) .flush
  | moveIntoPlace {f s} (hs : Held s₀ p f s)
      (ha : Store.admits p.folder (temporaryName r.process p.name) = .ok ()) :
      Progress r s₀ p (s.put (p.temporary r.process) (.file r.newFile)) .moveIntoPlace
  | removeNothing {f s e} (hs : Held s₀ p f s) : Progress r s₀ p s (.removeTemporary e)
  | removeTemporary {f s e g} (hs : Held s₀ p f s)
      (ha : Store.admits p.folder (temporaryName r.process p.name) = .ok ()) :
      Progress r s₀ p (s.put (p.temporary r.process) (.file g)) (.removeTemporary e)
  | releaseFailed {f s e} (hs : Held s₀ p f s) : Progress r s₀ p s (.releaseLock (.error e))
  | release {f s} (hs : Held s₀ p f s) (ht : s₀.FileOrNone p.target) :
      Progress r s₀ p (s.put p.target (.file r.newFile)) (.releaseLock (.ok ()))
  | unchanged {e} : Progress r s₀ p s₀ (.finished (.error e))
  | failed {e} : Progress r s₀ p (s₀.withLock p.target) (.finished (.error e))
  | replaced (ht : s₀.FileOrNone p.target) :
      Progress r s₀ p ((s₀.withLock p.target).put p.target (.file r.newFile)) (.finished (.ok ()))

section Refusals

variable {r : Replacement} {s s' : Store} {stage : Stage}

theorem step_of_granted (h : r.refusal? s stage = none) : r.step s stage = r.perform s stage := by
  rw [step, h]

theorem step_of_refused {refusal : Refusal} (h : r.refusal? s stage = some refusal) :
    r.step s stage =
      (r.remnant s refusal.arrived stage,
        stage.refused (r.refusedError refusal.fault stage)) := by
  rw [step, h]

/-- A step is carried out, or it is one that asks for something and is refused. -/
theorem step_cases (r : Replacement) (s : Store) (stage : Stage) :
    r.step s stage = r.perform s stage ∨
      ∃ refusal : Refusal, r.request? stage ≠ none ∧
        r.step s stage =
          (r.remnant s refusal.arrived stage,
            stage.refused (r.refusedError refusal.fault stage)) := by
  cases h : r.refusal? s stage with
  | none => exact .inl (step_of_granted h)
  | some refusal =>
    refine .inr ⟨refusal, fun hnone => ?_, step_of_refused h⟩
    rw [refusal?, hnone] at h
    cases h

theorem remnant_of_ne (h : stage ≠ .fillTemporary) (arrived : Nat) :
    r.remnant s arrived stage = s := by
  unfold remnant
  split
  · exact absurd rfl h
  · rfl

/-- Stores that refuse the same refuse the same steps. -/
theorem refusal?_congr (h : s'.refuses = s.refuses) : r.refusal? s' stage = r.refusal? s stage := by
  rw [refusal?, refusal?, h]

end Refusals

section Steps

variable {r : Replacement} {s₀ s : Store} {p : Spot} {f : File}

theorem Held.keeps (hs : Held s₀ p f s) : Keeps s₀ s := by
  rw [hs.eq]
  exact keeps_withLock.trans (keeps_put (fileOrNone_of_file hs.lock))

theorem Held.node?_of_ne (hs : Held s₀ p f s) {l : Location} (hl : l ≠ p.lock) :
    s.node? l = s₀.node? l := by
  rw [hs.eq, node?_put_of_ne Spot.lock_ne_nil hl, node?_withLock_of_ne (by simpa using hl)]

theorem Held.node?_lock (hs : Held s₀ p f s) :
    s.node? p.lock = some (.file { f with locked := true }) := by
  rw [hs.eq, node?_put_self Spot.lock_ne_nil]

/-- Nothing stands in the place of the temporary file before it is made. -/
theorem Held.node?_temporary (h : Site r s₀ p) (hs : Held s₀ p f s) :
    s.node? (p.temporary r.process) = none := by
  rw [hs.node?_of_ne Spot.temporary_ne_lock, h.temporary]

theorem progress_openLock (h : Site r s₀ p) :
    Progress r s₀ p (r.perform s₀ .openLock).1 (r.perform s₀ .openLock).2 := by
  simp only [perform, openFile, h.locate?_lock (.refl s₀) h.lock_ne_link]
  cases ha : admits p.folder (lockName p.name) with
  | error fault => exact .unchanged
  | ok _ =>
    simp only [Except.map]
    cases hnode : s₀.node? p.lock with
    | none =>
      have := withLock_of_none (l := p.target) (by simpa using hnode)
      rw [Spot.lockOf_target] at this
      simp only [proceed, ← this]
      exact .takeLock
    | some n =>
      cases n with
      | file f =>
        have hwith := withLock_of_some (l := p.target) (by simpa using hnode)
        have hprogress : Progress r s₀ p (s₀.withLock p.target) .takeLock := .takeLock
        rwa [hwith] at hprogress
      | directory => exact .unchanged
      | link target => exact absurd hnode (h.lock_ne_link target)

theorem lock_ne_link_withLock (h : Site r s₀ p) (target : String) :
    (s₀.withLock p.target).node? p.lock ≠ some (.link target) := by
  cases hnode : s₀.node? p.lock with
  | none =>
    have hwith := withLock_of_none (l := p.target) (by simpa using hnode)
    rw [hwith, Spot.lockOf_target, node?_put_self Spot.lock_ne_nil]
    simp
  | some n =>
    have hwith := withLock_of_some (l := p.target) (by simpa using hnode)
    rw [hwith]
    exact h.lock_ne_link target

theorem progress_takeLock (h : Site r s₀ p) :
    Progress r s₀ p (r.perform (s₀.withLock p.target) .takeLock).1
      (r.perform (s₀.withLock p.target) .takeLock).2 := by
  have hlocate := h.locate?_lock keeps_withLock.ways (lock_ne_link_withLock h)
  simp only [perform, takeLock, find?, hlocate]
  cases ha : admits p.folder (lockName p.name) with
  | error fault => exact .failed
  | ok _ =>
    simp only [Except.map]
    cases hnode : (s₀.withLock p.target).node? p.lock with
    | none => exact .failed
    | some n =>
      cases n with
      | file f =>
        cases hf : f.locked with
        | true => simp only [hf, if_true]; exact .failed
        | false =>
          simp only [hf, Bool.false_eq_true, if_false]
          exact .openTemporary ⟨ha, hnode, hf, rfl⟩
      | directory => exact .failed
      | link target => exact .failed

theorem progress_openTemporary (h : Site r s₀ p) (hs : Held s₀ p f s) :
    Progress r s₀ p (r.perform s .openTemporary).1 (r.perform s .openTemporary).2 := by
  have hnode := hs.node?_temporary h
  have hlocate := h.locate?_temporary true hs.keeps.ways (by simp [hnode])
  simp only [perform, openTemporary, openFile, hlocate]
  cases ha : admits p.folder (temporaryName r.process p.name) with
  | error fault => exact .removeNothing hs
  | ok _ =>
    simp only [Except.map, hnode, put_put_self, proceed]
    exact .fillTemporary hs ha

theorem Held.keeps_temporary (h : Site r s₀ p) (hs : Held s₀ p f s) (g : File) :
    Keeps s₀ (s.put (p.temporary r.process) (.file g)) :=
  hs.keeps.trans (keeps_put (fileOrNone_of_none (hs.node?_temporary h)))

/-- The temporary file, once it is made, is the file that its path leads to. -/
theorem Held.locate?_temporary (follow : Bool) (h : Site r s₀ p) (hs : Held s₀ p f s)
    (ha : Store.admits p.folder (temporaryName r.process p.name) = .ok ()) (g : File) :
    let s' := s.put (p.temporary r.process) (.file g)
    s'.locate? follow r.temporaryPath = .ok (p.temporary r.process) ∧
      s'.node? (p.temporary r.process) = some (.file g) := by
  intro s'
  have hnode : s'.node? (p.temporary r.process) = some (.file g) :=
    node?_put_self Spot.temporary_ne_nil
  refine ⟨?_, hnode⟩
  rw [h.locate?_temporary follow (hs.keeps_temporary h g).ways (by simp [s', hnode]), ha, Except.map]

theorem changeFile_temporary (h : Site r s₀ p) (hs : Held s₀ p f s)
    (ha : admits p.folder (temporaryName r.process p.name) = .ok ()) (g : File)
    (change : File → File) :
    (s.put (p.temporary r.process) (.file g)).changeFile r.temporaryPath change =
      .ok (s.put (p.temporary r.process) (.file (change g))) := by
  obtain ⟨hlocate, hnode⟩ := hs.locate?_temporary true h ha g
  rw [changeFile, find?, hlocate]
  simp only [hnode, put_put_self]

theorem progress_fillTemporary (h : Site r s₀ p) (hs : Held s₀ p f s)
    (ha : admits p.folder (temporaryName r.process p.name) = .ok ()) :
    let s' := s.put (p.temporary r.process) (.file .empty)
    Progress r s₀ p (r.perform s' .fillTemporary).1 (r.perform s' .fillTemporary).2 := by
  simp only [perform, fillTemporary, changeFile_temporary h hs ha]
  exact .setMode hs ha

theorem progress_setMode (h : Site r s₀ p) (hs : Held s₀ p f s)
    (ha : admits p.folder (temporaryName r.process p.name) = .ok ()) :
    let s' := s.put (p.temporary r.process) (.file { File.empty with bytes := r.bytes })
    Progress r s₀ p (r.perform s' .setMode).1 (r.perform s' .setMode).2 := by
  simp only [perform, setMode, changeFile_temporary h hs ha]
  exact .flush hs ha

theorem progress_moveIntoPlace (h : Site r s₀ p) (hs : Held s₀ p f s)
    (ha : admits p.folder (temporaryName r.process p.name) = .ok ()) :
    let s' := s.put (p.temporary r.process) (.file r.newFile)
    Progress r s₀ p (r.perform s' .moveIntoPlace).1 (r.perform s' .moveIntoPlace).2 := by
  obtain ⟨hlocate, hnode⟩ := hs.locate?_temporary false h ha r.newFile
  have htarget : (s.put (p.temporary r.process) (.file r.newFile)).node? p.target =
      s₀.node? p.target := by
    rw [node?_put_of_ne Spot.temporary_ne_nil Spot.temporary_ne_target.symm,
      hs.node?_of_ne Spot.lock_ne_target.symm]
  intro s'
  simp only [perform, rename, s', hlocate, h.locate?_target (hs.keeps_temporary h r.newFile).ways,
    Except.map, hnode]
  cases hadmits : admits p.folder p.name with
  | error fault => exact .removeTemporary hs ha
  | ok _ =>
    simp only [if_neg Spot.target_ne_nil, if_neg Spot.temporary_ne_target.symm]
    split
    · exact .removeTemporary hs ha
    · next hdirectory =>
      rw [erase_put Spot.temporary_ne_nil (hs.node?_temporary h)]
      rw [htarget] at hdirectory
      exact .release hs ⟨hdirectory, h.target_ne_link⟩

theorem progress_removeNothing (h : Site r s₀ p) (hs : Held s₀ p f s) (e : StoreError) :
    Progress r s₀ p (r.perform s (.removeTemporary e)).1 (r.perform s (.removeTemporary e)).2 := by
  have hnode := hs.node?_temporary h
  simp only [perform, remove, h.locate?_temporary false hs.keeps.ways (by simp [hnode])]
  cases admits p.folder (temporaryName r.process p.name) with
  | error fault => exact .releaseFailed hs
  | ok _ =>
    simp only [Except.map, hnode, reduceCtorEq, if_false, erase_eq_self Spot.temporary_ne_nil hnode]
    exact .releaseFailed hs

theorem progress_removeTemporary (h : Site r s₀ p) (hs : Held s₀ p f s)
    (ha : admits p.folder (temporaryName r.process p.name) = .ok ()) (e : StoreError) (g : File) :
    let s' := s.put (p.temporary r.process) (.file g)
    Progress r s₀ p (r.perform s' (.removeTemporary e)).1 (r.perform s' (.removeTemporary e)).2 := by
  obtain ⟨hlocate, hnode⟩ := hs.locate?_temporary false h ha g
  intro s'
  simp only [perform, remove, s', hlocate, hnode, Option.some.injEq, reduceCtorEq, if_false,
    erase_put Spot.temporary_ne_nil (hs.node?_temporary h)]
  exact .releaseFailed hs

/-- The lock on the file that guards the target is released. -/
theorem unlock_lockPath (h : Site r s₀ p) (ha : admits p.folder (lockName p.name) = .ok ())
    (hs : Keeps s₀ s) (hnode : s.node? p.lock = some (.file f)) :
    s.unlock r.lockPath = s.put p.lock (.file { f with locked := false }) := by
  rw [unlock, changeFile, find?, h.locate?_lock hs.ways (by simp [hnode]), ha]
  simp only [Except.map, hnode]

theorem Held.put_unlocked (hs : Held s₀ p f s) :
    s.put p.lock (.file { f with locked := false }) = s₀.withLock p.target := by
  have hf : ({ f with locked := false } : File) = f := by rw [← hs.free]
  rw [hs.eq, put_put_self, hf, put_eq_self Spot.lock_ne_nil hs.lock]

theorem progress_releaseFailed (h : Site r s₀ p) (hs : Held s₀ p f s) (e : StoreError) :
    Progress r s₀ p (r.perform s (.releaseLock (.error e))).1
      (r.perform s (.releaseLock (.error e))).2 := by
  have hunlock : s.unlock r.lockPath = s₀.withLock p.target := by
    rw [unlock_lockPath h hs.admits hs.keeps hs.node?_lock]
    exact hs.put_unlocked
  simp only [perform, hunlock]
  exact .failed

theorem progress_release (h : Site r s₀ p) (hs : Held s₀ p f s) (ht : s₀.FileOrNone p.target) :
    let s' := s.put p.target (.file r.newFile)
    Progress r s₀ p (r.perform s' (.releaseLock (.ok ()))).1
      (r.perform s' (.releaseLock (.ok ()))).2 := by
  have hsame : s.node? p.target = s₀.node? p.target := hs.node?_of_ne Spot.lock_ne_target.symm
  have hkeeps : Keeps s₀ (s.put p.target (.file r.newFile)) :=
    hs.keeps.trans (keeps_put (by simpa [FileOrNone, hsame] using ht))
  have hnode : (s.put p.target (.file r.newFile)).node? p.lock =
      some (.file { f with locked := true }) := by
    rw [node?_put_of_ne Spot.target_ne_nil Spot.lock_ne_target, hs.node?_lock]
  intro s'
  simp only [perform, s', unlock_lockPath h hs.admits hkeeps hnode]
  rw [put_comm Spot.lock_ne_target.symm, hs.put_unlocked]
  exact .replaced ht

/-- A step that is carried out leads from one stage to another one. -/
theorem progress_perform (h : Site r s₀ p) {stage : Stage} (hprogress : Progress r s₀ p s stage) :
    Progress r s₀ p (r.perform s stage).1 (r.perform s stage).2 := by
  cases hprogress with
  | openLock => exact progress_openLock h
  | takeLock => exact progress_takeLock h
  | openTemporary hs => exact progress_openTemporary h hs
  | fillTemporary hs ha => exact progress_fillTemporary h hs ha
  | setMode hs ha => exact progress_setMode h hs ha
  | flush hs ha => exact .moveIntoPlace hs ha
  | moveIntoPlace hs ha => exact progress_moveIntoPlace h hs ha
  | removeNothing hs => exact progress_removeNothing h hs _
  | removeTemporary hs ha => exact progress_removeTemporary h hs ha _ _
  | releaseFailed hs => exact progress_releaseFailed h hs _
  | release hs ht => exact progress_release h hs ht
  | unchanged => exact .unchanged
  | failed => exact .failed
  | replaced ht => exact .replaced ht

/-- Some bytes are left in the temporary file when it cannot be filled. -/
theorem remnant_fillTemporary (h : Site r s₀ p) (hs : Held s₀ p f s)
    (ha : admits p.folder (temporaryName r.process p.name) = .ok ()) (arrived : Nat) :
    r.remnant (s.put (p.temporary r.process) (.file .empty)) arrived .fillTemporary =
      s.put (p.temporary r.process)
        (.file { File.empty with bytes := r.bytes.extract 0 arrived }) := by
  simp only [remnant, fillTemporary, changeFile_temporary h hs ha]

/-- A step that is refused leads to the end, or to where the temporary file is removed. -/
theorem progress_refused (h : Site r s₀ p) {stage : Stage} (hprogress : Progress r s₀ p s stage)
    (hrequest : r.request? stage ≠ none) (arrived : Nat) (e : StoreError) :
    Progress r s₀ p (r.remnant s arrived stage) (stage.refused e) := by
  cases hprogress with
  | openLock => exact .unchanged
  | takeLock => exact .failed
  | openTemporary hs => exact .removeNothing hs
  | fillTemporary hs ha =>
    rw [remnant_fillTemporary h hs ha]
    exact .removeTemporary hs ha
  | setMode hs ha | flush hs ha | moveIntoPlace hs ha => exact .removeTemporary hs ha
  | _ => exact absurd rfl hrequest

/-- Each step leads from one stage to another one. -/
theorem progress_step (h : Site r s₀ p) {stage : Stage} (hprogress : Progress r s₀ p s stage) :
    Progress r s₀ p (r.step s stage).1 (r.step s stage).2 := by
  obtain hgranted | ⟨refusal, hrequest, hrefused⟩ := step_cases r s stage
  · rw [hgranted]
    exact progress_perform h hprogress
  · rw [hrefused]
    exact progress_refused h hprogress hrequest refusal.arrived
      (r.refusedError refusal.fault stage)

theorem result?_eq_some_iff {stage : Stage} {result : Except StoreError Unit} :
    stage.result? = some result ↔ stage = .finished result := by
  cases stage <;> simp [Stage.result?]

/-- What each step of a replacement keeps holds at its end. -/
theorem finish_invariant (r : Replacement) {P : Store → Stage → Prop}
    (hstep : ∀ s stage, P s stage → P (r.step s stage).1 (r.step s stage).2) {s : Store}
    {stage : Stage} (h : P s stage) :
    P (r.finish s stage).1 (.finished (r.finish s stage).2) := by
  -- The recursion of `finish` ends because each step leaves fewer of them.
  induction s, stage using Replacement.finish.induct r with
  | case1 s stage result hresult =>
    rw [finish]
    split
    · next result' hresult' => rwa [← result?_eq_some_iff.1 hresult']
    · next hnone => rw [hresult] at hnone; cases hnone
  | case2 s stage hresult ih =>
    rw [finish]
    split
    · next result' hresult' => rw [hresult] at hresult'; cases hresult'
    · exact ih (hstep s stage h)

/-- A replacement comes to an end of its stages. -/
theorem progress_finish (h : Site r s₀ p) {stage : Stage} (hprogress : Progress r s₀ p s stage) :
    Progress r s₀ p (r.finish s stage).1 (.finished (r.finish s stage).2) :=
  finish_invariant (P := Progress r s₀ p) r (fun _ _ => progress_step h) hprogress

end Steps

end Replacement

end BlockEdit
