import BlockEdit.Proofs.Store.Replacement
import BlockEdit.Proofs.Store.SameWays

/-!
# A replacement as a whole

A replacement is a course of small steps. Here it is put together to what it comes to in the end: a
file at some place holds the lock (`guarded`), and meanwhile a temporary file is filled
(`exchanged`) and takes the place of the target (`moved`). `finish_openLock` says that the steps
come to just that, with the same errors. What the store refuses to a replacement is the same all
along, so that it is known from the start which step fails for that reason (`hitch?`).

The places are those to which the paths of the lock and of the temporary file lead (`Sites`). They
stay the same all along, because only files are made, changed and removed. So the temporary file and
the target must not be links; the lock file may be one.
-/

namespace BlockEdit

namespace Store

/-- The store in which nobody holds the lock on a file that stands at a place. -/
def unlockAt (s : Store) (k : Location) : Store :=
  match s.node? k with
  | some (.file f) => s.put k (.file { f with locked := false })
  | _ => s

end Store

namespace Replacement

open Store

/-- A temporary file with the new bytes, and with the permissions of the target. -/
def filled (r : Replacement) (g : File) : File :=
  { g with bytes := r.bytes, mode := r.mode.getD g.mode }

/-- The error of a replacement for which one of the stages comes where the store refuses its step. -/
def hitch? (r : Replacement) (s : Store) (stages : List Stage) : Option StoreError :=
  stages.findSome? fun stage =>
    (r.refusal? s stage).map fun refusal => r.refusedError refusal.fault stage

/-- What comes of a temporary file at the place `m` that is filled, when these stages are left: it
takes the place of the target, or it is removed. -/
def settled (r : Replacement) (s : Store) (m : Location) (stages : List Stage) :
    Store × Except StoreError Unit :=
  match r.hitch? s stages with
  | some e => (s.erase m, .error e)
  | none =>
    match s.rename r.temporaryPath r.target with
    | .ok s' => (s', .ok ())
    | .error fault => (s.erase m, .error (.io r.target fault))

/-- What comes of a temporary file `g` at the place `m` that is to be filled. -/
def moved (r : Replacement) (s : Store) (m : Location) (g : File) :
    Store × Except StoreError Unit :=
  r.settled (s.put m (.file (r.filled g))) m [.fillTemporary, .setMode, .flush, .moveIntoPlace]

/-- The store without the temporary file, when the temporary path leads to `temporary`. -/
def cleared (temporary : Except Fault Location) (s : Store) : Store :=
  match temporary with
  | .error _ => s
  | .ok m => if s.node? m = some .directory then s else s.erase m

/-- What a replacement does while it holds the lock, when its temporary path leads to
`temporary`. -/
def exchanged (r : Replacement) (temporary : Except Fault Location) (s : Store) :
    Store × Except StoreError Unit :=
  match r.refusal? s .openTemporary with
  | some refusal => (cleared temporary s, .error (.io r.temporaryPath refusal.fault))
  | none =>
    match temporary with
    | .error fault => (s, .error (.io r.temporaryPath fault))
    | .ok m =>
      match s.node? m with
      | none => r.moved s m .empty
      | some (.file g) => r.moved s m g
      | some _ => (s, .error (.io r.temporaryPath .isDirectory))

/-- What a replacement does with a file `f` at the place `k` that is to hold the lock. -/
def guarded (r : Replacement) (temporary : Except Fault Location) (s : Store) (k : Location)
    (f : File) : Store × Except StoreError Unit :=
  if f.locked || (r.refusal? s .takeLock).isSome then
    (s.put k (.file f), .error (.lockHeld r.target))
  else
    let ended := r.exchanged temporary (s.put k (.file { f with locked := true }))
    (ended.1.unlockAt k, ended.2)

/-- The lock of a replacement that begins in the store `s₀` has the place `k`, and its temporary
path leads to `temporary`. No link stands in the place of its temporary file or of its target. -/
structure Sites (r : Replacement) (s₀ : Store) (k : Location)
    (temporary : Except Fault Location) : Prop where
  locate_lock : s₀.locate? true r.lockPath = .ok k
  locate_temporary : ∀ {s} follow, SameWays s₀ s → s.locate? follow r.temporaryPath = temporary
  temporary_ne_link : ∀ {m}, temporary = .ok m → ∀ target, s₀.node? m ≠ some (.link target)
  target_ne_link : ∀ {l}, s₀.locate? false r.target = .ok l →
    ∀ target, s₀.node? l ≠ some (.link target)

variable {r : Replacement} {s₀ s s' : Store} {k m l : Location} {f g : File} {n : FileNode}
  {temporary : Except Fault Location} {stage : Stage} {result : Except StoreError Unit}
  {e : StoreError} {path : String}

/-! ### Changes to a file whose place is known -/

theorem erase_put_self : (s.put l n).erase l = s.erase l := by
  refine ext_nodes rfl rfl fun l' => ?_
  simp only [getElem?_erase, getElem?_put]
  split <;> rfl

theorem changeFile_eq_ok (hl : s.locate? true path = .ok l) (hnode : s.node? l = some (.file f))
    (change : File → File) : s.changeFile path change = .ok (s.put l (.file (change f))) := by
  simp only [changeFile, find?, hl, hnode]

theorem unlock_eq_unlockAt (hk : s.locate? true path = .ok k) : s.unlock path = s.unlockAt k := by
  simp only [unlock, changeFile, find?, hk, unlockAt]
  cases s.node? k with
  | none => rfl
  | some n => cases n <;> rfl

/-- The ways are the same after a file was moved, if it took the place of no link. -/
theorem sameWays_rename {source target : String} (h : s.rename source target = .ok s')
    (hsource : ∀ {l}, s.locate? false source = .ok l → s.FileOrNone l)
    (htarget : ∀ {l}, s.locate? false target = .ok l → ∀ t, s.node? l ≠ some (.link t)) :
    SameWays s s' := by
  obtain ⟨old, new, n, hold, hnew, hn, hdirectory, hmoved⟩ := rename_eq_ok h
  obtain ⟨-, rfl⟩ | ⟨-, rfl⟩ := hmoved
  · exact .refl _
  have herase := sameWays_erase (hsource hold)
  cases n with
  | file f =>
    exact herase.trans (sameWays_put (herase.fileOrNone_iff.2 ⟨hdirectory, htarget hnew⟩))
  | directory => exact absurd hn (hsource hold).1
  | link t => exact absurd hn ((hsource hold).2 t)

/-- What comes of a temporary file does not depend on its bytes before it is filled. -/
theorem moved_put {bytes : ByteArray} :
    r.moved (s.put m n) m { g with bytes := bytes } = r.moved s m g := by
  simp only [moved, filled, put_put_self]

theorem hitch?_congr (h : s'.refuses = s.refuses) (stages : List Stage) :
    r.hitch? s' stages = r.hitch? s stages := by
  simp only [hitch?, refusal?_congr h]

theorem hitch?_cons_of_granted (h : r.refusal? s stage = none) (stages : List Stage) :
    r.hitch? s (stage :: stages) = r.hitch? s stages := by
  simp [hitch?, h]

theorem settled_of_refused {refusal : Refusal} (h : r.refusal? s stage = some refusal)
    (stages : List Stage) :
    r.settled s m (stage :: stages) =
      (s.erase m, .error (r.refusedError refusal.fault stage)) := by
  simp [settled, hitch?, h]

theorem settled_cons_of_granted (h : r.refusal? s stage = none) (stages : List Stage) :
    r.settled s m (stage :: stages) = r.settled s m stages := by
  simp only [settled, hitch?_cons_of_granted h]

theorem settled_put_of_refused {refusal : Refusal} (h : r.refusal? s stage = some refusal)
    (stages : List Stage) :
    r.settled (s.put m n) m (stage :: stages) =
      (s.erase m, .error (r.refusedError refusal.fault stage)) := by
  have h' : r.refusal? (s.put m n) stage = some refusal := h
  rw [settled_of_refused h', erase_put_self]

theorem settled_put_of_granted (h : r.refusal? s stage = none) (stages : List Stage) :
    r.settled (s.put m n) m (stage :: stages) = r.settled (s.put m n) m stages :=
  have h' : r.refusal? (s.put m n) stage = none := h
  settled_cons_of_granted h' stages

theorem cleared_of_file (hm : temporary = .ok m) (hnode : s.node? m = some (.file g)) :
    cleared temporary s = s.erase m := by
  simp only [cleared, hm, hnode, Option.some.injEq, reduceCtorEq, if_false]

/-! ### The stages, last one first -/

theorem finish_finished (r : Replacement) (s : Store) (result : Except StoreError Unit) :
    r.finish s (.finished result) = (s, result) := by
  rw [finish]
  rfl

theorem finish_eq_step (h : stage.result? = none) :
    r.finish s stage = r.finish (r.step s stage).1 (r.step s stage).2 := by
  conv_lhs => rw [finish]
  split
  · next result hresult => rw [hresult] at h; cases h
  · rfl

theorem finish_eq_perform (h : stage.result? = none) (hgranted : r.refusal? s stage = none) :
    r.finish s stage = r.finish (r.perform s stage).1 (r.perform s stage).2 := by
  rw [finish_eq_step h, step_of_granted hgranted]

section Stages

variable (h : Sites r s₀ k temporary) (hs : SameWays s₀ s)

include h hs

theorem finish_releaseLock (result : Except StoreError Unit) :
    r.finish s (.releaseLock result) = (s.unlockAt k, result) := by
  rw [finish_eq_perform rfl rfl, perform, finish_finished,
    unlock_eq_unlockAt (hs.locate?_eq_ok_iff.2 h.locate_lock)]

/-- The ways are the same when the temporary file is removed. -/
theorem Sites.sameWays_cleared : SameWays s (cleared temporary s) := by
  unfold cleared
  split
  · exact .refl s
  · next m =>
    split
    · exact .refl s
    · next hdirectory =>
      exact sameWays_erase ⟨hdirectory, fun t ht =>
        h.temporary_ne_link rfl t ((hs.link m t).1 ht)⟩

theorem finish_removeTemporary (e : StoreError) :
    r.finish s (.removeTemporary e) = ((cleared temporary s).unlockAt k, .error e) := by
  have hremove : s.remove r.temporaryPath = cleared temporary s := by
    rw [remove, h.locate_temporary false hs]
    cases temporary <;> rfl
  rw [finish_eq_perform rfl rfl, perform, hremove,
    finish_releaseLock h (hs.trans (h.sameWays_cleared hs))]

section File

variable (hm : temporary = .ok m) (hnode : s.node? m = some (.file g))

include hm hnode

theorem perform_changeFile (change : File → File) :
    s.changeFile r.temporaryPath change = .ok (s.put m (.file (change g))) ∧
      SameWays s₀ (s.put m (.file (change g))) ∧
      (s.put m (.file (change g))).node? m = some (.file (change g)) := by
  have hfile := fileOrNone_of_file hnode
  have hl : s.locate? true r.temporaryPath = .ok m := by rw [h.locate_temporary true hs, hm]
  exact ⟨changeFile_eq_ok hl hnode change, hs.trans (sameWays_put hfile),
    node?_put_self hfile.ne_nil⟩

/-- A replacement that is refused something when its temporary file is there removes that file. -/
theorem finish_of_refused {refusal : Refusal} (hrefused : r.refusal? s stage = some refusal)
    (hstage : ∀ e, stage.refused e = .removeTemporary e) :
    r.finish s stage =
      ((s.erase m).unlockAt k, .error (r.refusedError refusal.fault stage)) := by
  have hresult : stage.result? = none := by
    cases stage with
    | finished result => exact nomatch hstage (.lockHeld "")
    | _ => rfl
  obtain ⟨s', hremnant, hs', g', hnode', herase⟩ : ∃ s', r.remnant s refusal.arrived stage = s' ∧
      SameWays s₀ s' ∧ ∃ g', s'.node? m = some (.file g') ∧ s'.erase m = s.erase m := by
    by_cases hfill : stage = .fillTemporary
    · obtain ⟨hchange, hways, hnode'⟩ := perform_changeFile h hs hm hnode
        fun file => { file with bytes := r.bytes.extract 0 refusal.arrived }
      refine ⟨_, ?_, hways, _, hnode', erase_put_self⟩
      simp only [hfill, remnant, fillTemporary, hchange]
    · exact ⟨s, remnant_of_ne hfill _, hs, g, hnode, rfl⟩
  rw [finish_eq_step hresult, step_of_refused hrefused, hstage, hremnant,
    finish_removeTemporary h hs', cleared_of_file hm hnode', herase]

theorem finish_moveIntoPlace :
    r.finish s .moveIntoPlace =
      let ended := r.settled s m [.moveIntoPlace]
      (ended.1.unlockAt k, ended.2) := by
  cases hrefusal : r.refusal? s .moveIntoPlace with
  | some refusal =>
    rw [settled_of_refused hrefusal]
    exact finish_of_refused h hs hm hnode hrefusal fun _ => rfl
  | none =>
    rw [settled_cons_of_granted hrefusal, finish_eq_perform rfl hrefusal, perform]
    simp only [settled, hitch?, List.findSome?_nil]
    cases hrename : s.rename r.temporaryPath r.target with
    | error fault =>
      simp only [proceed]
      rw [finish_removeTemporary h hs, cleared_of_file hm hnode]
    | ok s' =>
      refine finish_releaseLock h (hs.trans (sameWays_rename hrename ?_ ?_)) _
      · intro l hl
        rw [h.locate_temporary false hs, hm] at hl
        cases hl
        exact fileOrNone_of_file hnode
      · intro l hl t hlink
        exact h.target_ne_link (hs.locate?_eq_ok_iff.1 hl) t ((hs.link l t).1 hlink)

theorem finish_flush :
    r.finish s .flush =
      let ended := r.settled s m [.flush, .moveIntoPlace]
      (ended.1.unlockAt k, ended.2) := by
  cases hrefusal : r.refusal? s .flush with
  | some refusal =>
    rw [settled_of_refused hrefusal]
    exact finish_of_refused h hs hm hnode hrefusal fun _ => rfl
  | none =>
    rw [settled_cons_of_granted hrefusal, finish_eq_perform rfl hrefusal]
    simp only [perform]
    exact finish_moveIntoPlace h hs hm hnode

theorem finish_setMode :
    r.finish s .setMode =
      let ended := r.settled (s.put m (.file { g with mode := r.mode.getD g.mode })) m
        [.setMode, .flush, .moveIntoPlace]
      (ended.1.unlockAt k, ended.2) := by
  cases hrefusal : r.refusal? s .setMode with
  | some refusal =>
    rw [settled_put_of_refused hrefusal]
    exact finish_of_refused h hs hm hnode hrefusal fun _ => rfl
  | none =>
    obtain ⟨hchange, hways, hnode'⟩ :=
      perform_changeFile h hs hm hnode fun f => { f with mode := r.mode.getD f.mode }
    rw [settled_put_of_granted hrefusal, finish_eq_perform rfl hrefusal]
    simp only [perform, setMode, hchange, proceed]
    exact finish_flush h hways hm hnode'

theorem finish_fillTemporary :
    r.finish s .fillTemporary =
      let ended := r.moved s m g
      (ended.1.unlockAt k, ended.2) := by
  rw [moved]
  cases hrefusal : r.refusal? s .fillTemporary with
  | some refusal =>
    rw [settled_put_of_refused hrefusal]
    exact finish_of_refused h hs hm hnode hrefusal fun _ => rfl
  | none =>
    obtain ⟨hchange, hways, hnode'⟩ :=
      perform_changeFile h hs hm hnode fun f => { f with bytes := r.bytes }
    rw [settled_put_of_granted hrefusal, finish_eq_perform rfl hrefusal]
    simp only [perform, fillTemporary, hchange, proceed]
    simpa only [put_put_self, filled] using finish_setMode h hways hm hnode'

end File

theorem finish_openTemporary :
    r.finish s .openTemporary =
      let ended := r.exchanged temporary s
      (ended.1.unlockAt k, ended.2) := by
  have hl := h.locate_temporary true hs
  unfold exchanged
  cases hrefusal : r.refusal? s .openTemporary with
  | some refusal =>
    rw [finish_eq_step rfl, step_of_refused hrefusal]
    exact finish_removeTemporary h hs _
  | none =>
    rw [finish_eq_perform rfl hrefusal, perform, openTemporary, openFile, hl]
    cases ht : temporary with
    | error fault =>
      rw [ht] at h
      exact finish_removeTemporary h hs _
    | ok m =>
      simp only
      cases hnode : s.node? m with
      | none =>
        have hfile := fileOrNone_of_none hnode
        simp only [put_put_self, proceed]
        rw [finish_fillTemporary h (hs.trans (sameWays_put hfile)) ht (node?_put_self hfile.ne_nil),
          moved_put]
      | some n =>
        cases n with
        | file g =>
          have hfile := fileOrNone_of_file hnode
          simp only [proceed]
          rw [finish_fillTemporary h (hs.trans (sameWays_put hfile)) ht
            (node?_put_self hfile.ne_nil), moved_put]
        | directory =>
          simp only [proceed]
          rw [finish_removeTemporary h hs, ht, cleared, if_pos hnode]
        | link target => exact absurd ((hs.link m target).1 hnode) (h.temporary_ne_link ht target)

theorem finish_takeLock (hnode : s.node? k = some (.file f)) :
    r.finish s .takeLock = r.guarded temporary s k f := by
  have hfind : s.find? r.lockPath = .ok (k, .file f) :=
    find?_eq_ok_iff.2 ⟨hs.locate?_eq_ok_iff.2 h.locate_lock, hnode⟩
  have hfile := fileOrNone_of_file hnode
  rw [guarded]
  cases hrefusal : r.refusal? s .takeLock with
  | some refusal =>
    rw [finish_eq_step rfl, step_of_refused hrefusal, Option.isSome_some, Bool.or_true, if_pos rfl,
      put_eq_self hfile.ne_nil hnode]
    exact finish_finished r s _
  | none =>
    rw [finish_eq_perform rfl hrefusal, perform, takeLock, hfind, Option.isSome_none, Bool.or_false]
    by_cases hlocked : f.locked = true
    · simp only [if_pos hlocked, put_eq_self hfile.ne_nil hnode]
      exact finish_finished r s _
    · simp only [if_neg hlocked]
      exact finish_openTemporary h (hs.trans (sameWays_put hfile))

end Stages

/-- A replacement that must not open the file of its lock does nothing. -/
theorem finish_openLock_of_refused {refusal : Refusal}
    (h : r.refusal? s .openLock = some refusal) :
    r.finish s .openLock = (s, .error (.io r.lockPath refusal.fault)) := by
  rw [finish_eq_step rfl, step_of_refused h]
  exact finish_finished r s _

/-- A replacement that cannot find the place of its lock does nothing. -/
theorem finish_openLock_of_error {fault : Fault} (h : s.locate? true r.lockPath = .error fault) :
    r.finish s .openLock =
      (s, .error (.io r.lockPath ((r.refusal? s .openLock).elim fault Refusal.fault))) := by
  cases hrefusal : r.refusal? s .openLock with
  | some refusal => exact finish_openLock_of_refused hrefusal
  | none =>
    rw [finish_eq_perform rfl hrefusal, perform, openFile, h]
    exact finish_finished r s _

/-- What a replacement comes to that may open the file of its lock. -/
theorem finish_openLock_of_granted (h : Sites r s k temporary)
    (hgranted : r.refusal? s .openLock = none) :
    r.finish s .openLock =
      match s.node? k with
      | none => r.guarded temporary s k .empty
      | some (.file f) => r.guarded temporary s k f
      | some _ => (s, .error (.io r.lockPath .isDirectory)) := by
  rw [finish_eq_perform rfl hgranted, perform, openFile, h.locate_lock]
  cases hnode : s.node? k with
  | none =>
    have hfile := fileOrNone_of_none hnode
    simp only [hnode, Except.map, proceed]
    rw [finish_takeLock h (sameWays_put hfile) (node?_put_self hfile.ne_nil)]
    simp only [guarded, put_put_self]
    rfl
  | some n =>
    cases n with
    | file f =>
      simp only [hnode, Except.map, proceed]
      exact finish_takeLock h (.refl s) hnode
    | directory =>
      simp only [hnode, Except.map, proceed]
      exact finish_finished r s _
    | link target =>
      simp only [hnode, Except.map, proceed]
      exact finish_finished r s _

/-- What a replacement comes to, if it can find the place of its lock. -/
theorem finish_openLock (h : Sites r s k temporary) :
    r.finish s .openLock =
      match r.refusal? s .openLock with
      | some refusal => (s, .error (.io r.lockPath refusal.fault))
      | none =>
        match s.node? k with
        | none => r.guarded temporary s k .empty
        | some (.file f) => r.guarded temporary s k f
        | some _ => (s, .error (.io r.lockPath .isDirectory)) := by
  cases hrefusal : r.refusal? s .openLock with
  | some refusal => exact finish_openLock_of_refused hrefusal
  | none => exact finish_openLock_of_granted h hrefusal

end Replacement

end BlockEdit
