import BlockEdit.Path.Basic
import BlockEdit.Store.Error
import BlockEdit.Store.Resolve

/-!
# Writing files

A file is replaced as a whole, so that a reader sees the bytes from before or the new ones and
never a mixture. The new bytes are written to a temporary file beside the target, which then takes
the place of the target in one step; meanwhile the writer holds the lock on a file that is named
after the target and is never removed. A symbolic link stays as it is: what it leads to is replaced.

`Stage` lists the points between the steps of a replacement, `Replacement.step` carries out the next
step, and `Replacement.finish` all steps that are left. `Store.write` makes the directories that are
missing, finds the target, and replaces it.

A step fails because of what stands in the store, or because the store refuses it. Two steps are
not refused. A directory in which the temporary file could be made is taken to let go of it again,
and a lock goes with the open file.
-/

namespace BlockEdit

namespace Store

/-- The store with a directory made where a path leads. -/
def makeDirectory (s : Store) (path : String) : Except Fault Store :=
  match s.locate? false path with
  | .error fault => .error fault
  | .ok l =>
    match s.node? l with
    | some _ => .error .alreadyExists
    | none =>
      match s.refuses (.makeDirectory path) with
      | some refusal => .error refusal.fault
      | none => .ok (s.put l .directory)

/-- The store with the first of the paths made a directory, where each next path is the parent of
the one in front of it and is made as well if it is missing. -/
def makeDirectories (s : Store) : List String → Store × Except Fault Unit
  | [] => (s, .ok ())
  | path :: above =>
    match s.makeDirectory path with
    | .ok s => (s, .ok ())
    | .error .notFound =>
      match s.makeDirectories above with
      | (s, .error fault) => (s, .error fault)
      | (s, .ok ()) =>
        match s.makeDirectory path with
        | .ok s => (s, .ok ())
        | .error fault => (s, if s.hasDirectory path then .ok () else .error fault)
    | .error fault => (s, if s.hasDirectory path then .ok () else .error fault)

/-- The store in which the file that a path leads to is open for writing, and its location. A file
that is missing is made. -/
def openFile (s : Store) (path : String) : Except Fault (Store × Location × File) :=
  match s.locate? true path with
  | .error fault => .error fault
  | .ok l =>
    match s.node? l with
    | some (.file file) => .ok (s, l, file)
    | some _ => .error .isDirectory
    | none => .ok (s.put l (.file .empty), l, .empty)

/-- The store with a change made to the file that a path leads to. -/
def changeFile (s : Store) (path : String) (change : File → File) : Except Fault Store :=
  match s.find? path with
  | .error fault => .error fault
  | .ok (l, .file file) => .ok (s.put l (.file (change file)))
  | .ok _ => .error .isDirectory

/-- The store with the file of one path moved to another one, in the place of what stands there. -/
def rename (s : Store) (source target : String) : Except Fault Store :=
  match s.locate? false source with
  | .error fault => .error fault
  | .ok old =>
    match s.locate? false target with
    | .error fault => .error fault
    | .ok new =>
      match s.node? old with
      | none => .error .notFound
      | some n =>
        if new = [] then .error .busy
        else if s.node? new = some .directory then .error .isDirectory
        else if new = old then .ok s
        else .ok ((s.erase old).put new n)

/-- The store without the file of a path. -/
def remove (s : Store) (path : String) : Store :=
  match s.locate? false path with
  | .error _ => s
  | .ok l => if s.node? l = some .directory then s else s.erase l

/-- The store in which somebody holds the lock on the file of a path, which is made if it is
missing. -/
def lock (s : Store) (path : String) : Except Fault Store :=
  match s.openFile path with
  | .error fault => .error fault
  | .ok (s, l, file) => .ok (s.put l (.file { file with locked := true }))

/-- The store in which nobody holds the lock on the file of a path. -/
def unlock (s : Store) (path : String) : Store :=
  match s.changeFile path fun file => { file with locked := false } with
  | .error _ => s
  | .ok s => s

end Store

/-- The replacement of a file: the path of the target, the new bytes, the permissions of the file
that is there, and the number of the process that replaces it. -/
structure Replacement where
  target : String
  bytes : ByteArray
  mode : Option Nat
  process : Nat

/-- The points between the steps of a replacement. -/
inductive Stage where
  | openLock
  | takeLock
  | openTemporary
  | fillTemporary
  | setMode
  | flush
  | moveIntoPlace
  /-- The temporary file is still to be removed. -/
  | removeTemporary (e : StoreError)
  /-- The lock is still to be released. -/
  | releaseLock (result : Except StoreError Unit)
  | finished (result : Except StoreError Unit)

/-- The result of a replacement that is over. -/
def Stage.result? : Stage → Option (Except StoreError Unit)
  | finished result => some result
  | _ => none

/-- The number of steps that are left at most. -/
def Stage.stepsLeft : Stage → Nat
  | openLock => 9
  | takeLock => 8
  | openTemporary => 7
  | fillTemporary => 6
  | setMode => 5
  | flush => 4
  | moveIntoPlace => 3
  | removeTemporary _ => 2
  | releaseLock _ => 1
  | finished _ => 0

/-- The stage behind a step that was refused. Before the lock is held there is nothing to do, and
afterwards the temporary file is removed. -/
def Stage.refused (e : StoreError) : Stage → Stage
  | openLock | takeLock => finished (.error e)
  | openTemporary | fillTemporary | setMode | flush | moveIntoPlace => removeTemporary e
  | removeTemporary e => releaseLock (.error e)
  | releaseLock result | finished result => finished result

namespace Replacement

/-- The path of the file whose lock guards the target. -/
def lockPath (r : Replacement) : String := r.target ++ ".lock"

/-- The path of the temporary file, in the directory of the target. -/
def temporaryPath (r : Replacement) : String :=
  let back := r.target.toList.reverse
  let name := String.ofList (back.takeWhile (· ≠ '/')).reverse
  let directory := String.ofList (back.dropWhile (· ≠ '/')).reverse
  directory ++ "." ++ name ++ s!".{r.process}.tmp"

/-- The next stage and the store then, when a step that concerns a path gave `result`. -/
def proceed (s : Store) (result : Except Fault Store) (next : Stage) (path : String)
    (failed : StoreError → Stage) : Store × Stage :=
  match result with
  | .ok s => (s, next)
  | .error fault => (s, failed (.io path fault))

/-- The stage after a step that failed while nothing was locked. -/
def giveUp (e : StoreError) : Stage := .finished (.error e)

/-- The lock is taken, unless somebody else holds it. -/
def takeLock (r : Replacement) (s : Store) : Store × Stage :=
  match s.find? r.lockPath with
  | .ok (l, .file file) =>
    if file.locked then (s, giveUp (.lockHeld r.target))
    else (s.put l (.file { file with locked := true }), .openTemporary)
  | _ => (s, giveUp (.lockHeld r.target))

/-- The store with an empty temporary file. -/
def openTemporary (r : Replacement) (s : Store) : Except Fault Store :=
  match s.openFile r.temporaryPath with
  | .error fault => .error fault
  | .ok (s, l, file) => .ok (s.put l (.file { file with bytes := .empty }))

/-- The store with bytes in the temporary file. -/
def fillTemporary (r : Replacement) (s : Store) (bytes : ByteArray) : Except Fault Store :=
  s.changeFile r.temporaryPath fun file => { file with bytes := bytes }

/-- The store with the permissions of the target on the temporary file. -/
def setMode (r : Replacement) (s : Store) : Except Fault Store :=
  s.changeFile r.temporaryPath fun file => { file with mode := r.mode.getD file.mode }

/-- The next step of a replacement, when it is not refused. -/
def perform (r : Replacement) (s : Store) : Stage → Store × Stage
  | .openLock => proceed s ((s.openFile r.lockPath).map (·.1)) .takeLock r.lockPath giveUp
  | .takeLock => r.takeLock s
  | .openTemporary =>
    proceed s (r.openTemporary s) .fillTemporary r.temporaryPath .removeTemporary
  | .fillTemporary =>
    proceed s (r.fillTemporary s r.bytes) .setMode r.temporaryPath .removeTemporary
  | .setMode => proceed s (r.setMode s) .flush r.temporaryPath .removeTemporary
  | .flush => (s, .moveIntoPlace)
  | .moveIntoPlace =>
    proceed s (s.rename r.temporaryPath r.target) (.releaseLock (.ok ())) r.target .removeTemporary
  | .removeTemporary e => (s.remove r.temporaryPath, .releaseLock (.error e))
  | .releaseLock result => (s.unlock r.lockPath, .finished result)
  | .finished result => (s, .finished result)

/-- What the next step of a replacement asks of a store. -/
def request? (r : Replacement) : Stage → Option Request
  | .openLock => some (.openFile r.lockPath)
  | .takeLock => some (.takeLock r.lockPath)
  | .openTemporary => some (.openFile r.temporaryPath)
  | .fillTemporary => some (.fill r.temporaryPath r.bytes)
  | .setMode => r.mode.map (.setMode r.temporaryPath)
  | .flush => some (.flush r.temporaryPath)
  | .moveIntoPlace => some (.rename r.temporaryPath r.target)
  | .removeTemporary _ | .releaseLock _ | .finished _ => none

/-- The refusal that the next step of a replacement meets with. -/
def refusal? (r : Replacement) (s : Store) (stage : Stage) : Option Refusal :=
  (r.request? stage).bind s.refuses

/-- The error of a replacement when its next step is refused. -/
def refusedError (r : Replacement) (fault : Fault) : Stage → StoreError
  | .openLock => .io r.lockPath fault
  | .takeLock => .lockHeld r.target
  | .moveIntoPlace => .io r.target fault
  | _ => .io r.temporaryPath fault

/-- The store when the next step of a replacement is refused: some bytes may have been written. -/
def remnant (r : Replacement) (s : Store) (arrived : Nat) : Stage → Store
  | .fillTemporary =>
    match r.fillTemporary s (r.bytes.extract 0 arrived) with
    | .error _ => s
    | .ok s => s
  | _ => s

/-- The next step of a replacement. -/
def step (r : Replacement) (s : Store) (stage : Stage) : Store × Stage :=
  match r.refusal? s stage with
  | none => r.perform s stage
  | some refusal =>
    (r.remnant s refusal.arrived stage, stage.refused (r.refusedError refusal.fault stage))

theorem stepsLeft_proceed {s : Store} {result : Except Fault Store} {next : Stage} {path : String}
    {failed : StoreError → Stage} {n : Nat} (hn : next.stepsLeft < n)
    (hf : ∀ e, (failed e).stepsLeft < n) :
    (proceed s result next path failed).2.stepsLeft < n := by
  cases result with
  | ok s => exact hn
  | error fault => exact hf _

theorem stepsLeft_takeLock (r : Replacement) (s : Store) : (r.takeLock s).2.stepsLeft < 8 := by
  unfold takeLock
  split
  · split <;> simp [Stage.stepsLeft, giveUp]
  · simp [Stage.stepsLeft, giveUp]

theorem stepsLeft_perform (r : Replacement) (s : Store) (stage : Stage)
    (h : stage.result? = none) : (r.perform s stage).2.stepsLeft < stage.stepsLeft := by
  cases stage with
  | finished result => simp [Stage.result?] at h
  | takeLock => rw [perform]; exact stepsLeft_takeLock r s
  | flush | removeTemporary e | releaseLock result => simp [perform, Stage.stepsLeft]
  | _ => rw [perform]; apply stepsLeft_proceed <;> simp [Stage.stepsLeft, giveUp]

theorem stepsLeft_refused (e : StoreError) (stage : Stage) (h : stage.result? = none) :
    (stage.refused e).stepsLeft < stage.stepsLeft := by
  cases stage with
  | finished result => simp [Stage.result?] at h
  | _ => simp [Stage.refused, Stage.stepsLeft]

theorem stepsLeft_step (r : Replacement) (s : Store) (stage : Stage)
    (h : stage.result? = none) : (r.step s stage).2.stepsLeft < stage.stepsLeft := by
  unfold step
  split
  · exact stepsLeft_perform r s stage h
  · exact stepsLeft_refused _ stage h

/-- All steps that are left of a replacement. -/
def finish (r : Replacement) (s : Store) (stage : Stage) : Store × Except StoreError Unit :=
  match _h : stage.result? with
  | some result => (s, result)
  | none => r.finish (r.step s stage).1 (r.step s stage).2
termination_by stage.stepsLeft
decreasing_by exact stepsLeft_step r s stage (by assumption)

end Replacement

namespace Store

/-- The store with the directory of a path, if it is missing. -/
def makeParent (s : Store) (path : Path) : Store × Except StoreError Unit :=
  match path.parent? with
  | none => (s, .ok ())
  | some parent =>
    match s.makeDirectories (parent.ancestors.map (·.text)) with
    | (s, .ok ()) => (s, .ok ())
    | (s, .error fault) => (s, .error (.io parent.text fault))

/-- The replacement of the file that a path leads to, or of what stands at the path itself if it
leads to nothing. -/
def replacement (s : Store) (process : Nat) (path : Path) (bytes : ByteArray) :
    Except StoreError Replacement :=
  match s.find? path.text with
  | .ok (l, .file file) => .ok ⟨pathOf l, bytes, some file.mode, process⟩
  | .ok (l, _) => .ok ⟨pathOf l, bytes, none, process⟩
  | .error .notFound => .ok ⟨path.text, bytes, none, process⟩
  | .error fault => .error (.io path.text fault)

/-- The store with the bytes of the file that a path leads to replaced by a process. -/
def write (s : Store) (process : Nat) (path : Path) (bytes : ByteArray) :
    Store × Except StoreError Unit :=
  match s.makeParent path with
  | (s, .error e) => (s, .error e)
  | (s, .ok ()) =>
    match s.replacement process path bytes with
    | .error e => (s, .error e)
    | .ok r => r.finish s .openLock

end Store

end BlockEdit
