import BlockEdit.Proofs.Store.Course
import BlockEdit.Proofs.Store.Disk
import BlockEdit.Proofs.Store.Exchange

/-!
# Replacements of one file at the same time

Any number of callers replace the same file. Their steps come in any order, each step may fail, and
a write that fails may have written anything. What a caller has opened stays open, whatever happens
to its name; a lock is held by at most one of those who have the same file open.

* `Position` and `Replacement.act`: the stages of a replacement and its steps, with open files;
* `Event`, `World.next`, `World.run`: what can happen to all callers and the disk;
* `Safe`: the invariant, and `Safe.next` that every event keeps it;
* `rivals_replace_whole_files`: the target is always the old file or the new one of a caller.

The invariant rests on the lock file, which is never removed, so that all callers have the same file
open as the lock; and on the order in which a caller that fails removes its temporary file before it
releases the lock, so that the next one finds nothing in its way. The paths of these files must not
lead to one another, as they can by way of links (`Rivals`); `links_defeat_rivals` says what happens
then.
-/

namespace BlockEdit

/-- The points between the steps of a replacement, with the numbers of the files that are open. -/
inductive Position where
  | openLock
  | takeLock (lock : Nat)
  | openTemporary (lock : Nat)
  | fillTemporary (lock temporary : Nat)
  | setMode (lock temporary : Nat)
  | flush (lock temporary : Nat)
  | moveIntoPlace (lock : Nat)
  | removeTemporary (lock : Nat) (e : StoreError)
  | releaseLock (lock : Nat) (result : Except StoreError Unit)
  | finished (result : Except StoreError Unit)

namespace Position

/-- The stage without the open files. -/
def stage : Position → Stage
  | openLock => .openLock
  | takeLock _ => .takeLock
  | openTemporary _ => .openTemporary
  | fillTemporary _ _ => .fillTemporary
  | setMode _ _ => .setMode
  | flush _ _ => .flush
  | moveIntoPlace _ => .moveIntoPlace
  | removeTemporary _ e => .removeTemporary e
  | releaseLock _ result => .releaseLock result
  | finished result => .finished result

/-- The file on which the lock is held. -/
def held? : Position → Option Nat
  | openTemporary n | fillTemporary n _ | setMode n _ | flush n _ | moveIntoPlace n
  | removeTemporary n _ | releaseLock n _ => some n
  | openLock | takeLock _ | finished _ => none

/-- The file that is open to be locked. -/
def lock? : Position → Option Nat
  | takeLock n => some n
  | position => position.held?

/-- The new file has been moved into the place of the target. -/
def hasReplaced : Position → Bool
  | releaseLock _ (.ok ()) | finished (.ok ()) => true
  | _ => false

/-- The position behind a step that failed. An error is left aside when the temporary file is
removed and when the lock is released. -/
def failed (e : StoreError) : Position → Position
  | openLock | takeLock _ => finished (.error e)
  | openTemporary n | fillTemporary n _ | setMode n _ | flush n _ | moveIntoPlace n =>
    removeTemporary n e
  | removeTemporary n e => releaseLock n (.error e)
  | releaseLock _ result | finished result => finished result

end Position

/-- The bytes of a file when new ones are written from its beginning on. -/
def overwritten (old new : ByteArray) : ByteArray := new ++ old.extract new.size old.size

/-- The next step of a replacement, with open files. -/
@[simp]
def Replacement.act (r : Replacement) (k : Disk) : Position → Disk × Position
  | .openLock =>
    match k.openFile r.lockPath with
    | .error fault => (k, .finished (.error (.io r.lockPath fault)))
    | .ok (k, n) => (k, .takeLock n)
  | .takeLock n =>
    if (k.files n).locked then (k, .finished (.error (.lockHeld r.target)))
    else (k.change n fun file => { file with locked := true }, .openTemporary n)
  | .openTemporary n =>
    match k.openFile r.temporaryPath with
    | .error fault => (k, .removeTemporary n (.io r.temporaryPath fault))
    | .ok (k, t) => (k.change t fun file => { file with bytes := .empty }, .fillTemporary n t)
  | .fillTemporary n t =>
    (k.change t fun file => { file with bytes := overwritten file.bytes r.bytes }, .setMode n t)
  | .setMode n t =>
    (k.change t fun file => { file with mode := r.mode.getD file.mode }, .flush n t)
  | .flush n _ => (k, .moveIntoPlace n)
  | .moveIntoPlace n =>
    match k.rename r.temporaryPath r.target with
    | .error fault => (k, .removeTemporary n (.io r.target fault))
    | .ok k => (k, .releaseLock n (.ok ()))
  | .removeTemporary n e => (k.remove r.temporaryPath, .releaseLock n (.error e))
  | .releaseLock n result =>
    (k.change n fun file => { file with locked := false }, .finished result)
  | .finished result => (k, .finished result)

/-- The disk, and how far each caller has got. -/
structure World (ι : Type) where
  disk : Disk
  positions : ι → Position

/-- What can happen: a caller takes its next step, or the step fails, or the caller fails while it
fills its temporary file, in which some bytes are left. A caller that finds the lock held and tries
again later has taken no step; the step at which it finds the lock held is the one at which it gives
up. -/
inductive Event (ι : Type) where
  | step (i : ι)
  | fail (i : ι) (e : StoreError)
  | breakOff (i : ι) (e : StoreError) (bytes : ByteArray)

namespace World

variable {ι : Type} [DecidableEq ι]

/-- All callers are about to begin. -/
def start (k : Disk) : World ι := ⟨k, fun _ => .openLock⟩

/-- The world in which one caller has got to a position, and the disk is another one. -/
def update (w : World ι) (i : ι) (result : Disk × Position) : World ι :=
  ⟨result.1, Function.update w.positions i result.2⟩

/-- The world after an event. -/
def next (r : ι → Replacement) (w : World ι) : Event ι → World ι
  | .step i => w.update i ((r i).act w.disk (w.positions i))
  | .fail i e => w.update i (w.disk, (w.positions i).failed e)
  | .breakOff i e bytes =>
    match w.positions i with
    | .fillTemporary n t =>
      w.update i (w.disk.change t fun file => { file with bytes := bytes }, .removeTemporary n e)
    | _ => w

/-- The world after all events of a list. -/
def run (r : ι → Replacement) (w : World ι) (events : List (Event ι)) : World ι :=
  events.foldl (next r) w

end World

namespace Replacement

open Store

/-- The replacements concern the same file. The path of its lock leads neither to that file nor to a
temporary file, and no link stands in the place of a temporary file. -/
structure Rivals {ι : Type} (r : ι → Replacement) (k : Disk) (p : Spot) : Prop where
  overwrites : ∀ i, (r i).Overwrites k.store p
  lock_apart : ∀ i c, k.store.locate? true (r i).lockPath = .ok c →
    c ≠ p.target ∧ ∀ j, c ≠ p.temporary (r j).process

/-- The temporary file with the number `t` stands where its path led from the beginning. -/
structure HasTemporary (r : Replacement) (k₀ k : Disk) (p : Spot) (t : Nat) : Prop where
  locate : k₀.store.locate? true r.temporaryPath = .ok (p.temporary r.process)
  entry : k.entryAt? (p.temporary r.process) = some (.file t)

/-- What has been prepared at a position: an empty temporary file, or one with the new bytes. -/
def Prepared (r : Replacement) (k₀ k : Disk) (p : Spot) : Position → Prop
  | .fillTemporary _ t => r.HasTemporary k₀ k p t ∧ (k.files t).bytes = .empty
  | .setMode _ t | .flush _ t => r.HasTemporary k₀ k p t ∧ (k.files t).bytes = r.bytes
  | .moveIntoPlace _ => ∃ t, r.HasTemporary k₀ k p t ∧ (k.files t).bytes = r.bytes
  | _ => True

/-- The state of all callers, who began with the disk `k₀`, on which the target had the bytes `old`:
whoever has a lock file open has the one to which its path leads, at most one of them holds the lock
on it, and the target is the old file or the one of a caller that has replaced it. -/
structure Safe {ι : Type} (r : ι → Replacement) (k₀ : Disk) (p : Spot) (old : ByteArray)
    (w : World ι) : Prop where
  ways : SameWays k₀.store w.disk.store
  opened : ∀ {i n}, (w.positions i).lock? = some n →
    ∃ c, k₀.store.locate? true (r i).lockPath = .ok c ∧ w.disk.entryAt? c = some (.file n)
  locked : ∀ {i n}, (w.positions i).held? = some n → (w.disk.files n).locked = true
  alone : ∀ {i j n m}, (w.positions i).held? = some n → (w.positions j).held? = some m → i = j
  prepared : ∀ i, (r i).Prepared k₀ w.disk p (w.positions i)
  target : ∃ n, w.disk.entryAt? p.target = some (.file n) ∧
    ((w.disk.files n).bytes = old ∨
      ∃ i, (w.positions i).hasReplaced ∧ (w.disk.files n).bytes = (r i).bytes)

/-! ### What a step of one caller leaves to the others -/

section Update

variable {ι : Type} {r : ι → Replacement} {k₀ k' : Disk} {p : Spot}
  {old : ByteArray} {w : World ι} {i j : ι} {n m : Nat} {c l : Location} {pos : Position}

theorem lock?_of_held? (h : pos.held? = some n) : pos.lock? = some n := by
  cases pos <;> simp_all [Position.held?, Position.lock?]

theorem prepared_of_not_held (r : Replacement) (k₀ k : Disk) (p : Spot) (h : pos.held? = none) :
    r.Prepared k₀ k p pos := by
  cases pos <;> simp_all [Position.held?, Prepared]

theorem Rivals.lockPath_eq (hr : Rivals r k₀ p) (i j : ι) : (r i).lockPath = (r j).lockPath := by
  rw [(hr.overwrites i).lockPath, (hr.overwrites j).lockPath]

theorem Rivals.eq_temporary (hr : Rivals r k₀ p) {s : Store} {follow : Bool}
    (hs : SameWays k₀.store s) (hl : s.locate? follow (r i).temporaryPath = .ok l) :
    l = p.temporary (r i).process :=
  eq_temporary_of_locate? (hr.overwrites i) (.refl _ _) (hs.locate?_eq_ok_iff.1 hl)

theorem Rivals.eq_target (hr : Rivals r k₀ p) {s : Store} (hs : SameWays k₀.store s)
    (hl : s.locate? false (r i).target = .ok l) : l = p.target :=
  eq_target_of_locate? (hr.overwrites i) (.refl _ _) (hs.locate?_eq_ok_iff.1 hl)

theorem safe_start (r : ι → Replacement) (hn : k₀.entryAt? p.target = some (.file n)) :
    Safe r k₀ p (k₀.files n).bytes (World.start k₀) where
  ways := .refl _
  opened h := by cases h
  locked h := by cases h
  alone h := by cases h
  prepared _ := trivial
  target := ⟨n, hn, .inl rfl⟩

/-- Callers that have a lock file open have the same one open. -/
theorem Safe.lock_unique (h : Safe r k₀ p old w) (hr : Rivals r k₀ p)
    (hi : (w.positions i).lock? = some n) (hj : (w.positions j).lock? = some m) : n = m := by
  obtain ⟨c, hc, hn⟩ := h.opened hi
  obtain ⟨c', hc', hm⟩ := h.opened hj
  rw [hr.lockPath_eq j i, hc] at hc'
  cases hc'
  rw [hn] at hm
  cases hm
  rfl

theorem Safe.not_held_of_ne (h : Safe r k₀ p old w) (hi : (w.positions i).held? = some n)
    (hj : j ≠ i) : (w.positions j).held? = none := by
  cases hheld : (w.positions j).held? with
  | none => rfl
  | some m => exact absurd (h.alone hheld hi) hj

/-- The step by which a caller replaces the target is the one that moves its temporary file. -/
theorem exists_rename_of_hasReplaced (r : Replacement) {k : Disk} (hbefore : ¬pos.hasReplaced)
    (hbehind : (r.act k pos).2.hasReplaced) :
    ∃ n k', pos = .moveIntoPlace n ∧ k.rename r.temporaryPath r.target = .ok k' ∧
      r.act k pos = (k', .releaseLock n (.ok ())) := by
  cases pos with
  | openLock =>
    rw [act] at hbehind
    cases hopen : k.openFile r.lockPath <;> simp [hopen, Position.hasReplaced] at hbehind
  | takeLock n =>
    rw [act] at hbehind
    split at hbehind <;> simp [Position.hasReplaced] at hbehind
  | openTemporary n =>
    rw [act] at hbehind
    cases hopen : k.openFile r.temporaryPath <;> simp [hopen, Position.hasReplaced] at hbehind
  | fillTemporary n t | setMode n t | flush n t => simp [Position.hasReplaced] at hbehind
  | moveIntoPlace n =>
    rw [act] at hbehind ⊢
    cases hrename : k.rename r.temporaryPath r.target with
    | error fault => simp [hrename, Position.hasReplaced] at hbehind
    | ok k' => exact ⟨n, k', rfl, rfl, rfl⟩
  | removeTemporary n e => simp [Position.hasReplaced] at hbehind
  | releaseLock n result => cases result <;> simp_all [Position.hasReplaced]
  | finished result => exact absurd hbehind hbefore

/-- A temporary file that is moved into place becomes the target. -/
theorem Safe.rename_eq_ok (h : Safe r k₀ p old w) (hr : Rivals r k₀ p)
    (hi : w.positions i = .moveIntoPlace n)
    (hrename : w.disk.rename (r i).temporaryPath (r i).target = .ok k') :
    ∃ t, w.disk.entryAt? (p.temporary (r i).process) = some (.file t) ∧
      (w.disk.files t).bytes = (r i).bytes ∧
      k' = w.disk.move (p.temporary (r i).process) p.target := by
  have hprepared := h.prepared i
  rw [hi] at hprepared
  obtain ⟨t, ht, hbytes⟩ := hprepared
  obtain ⟨m, l, e, hm, hl, -, hmoved⟩ := Disk.rename_eq_ok hrename
  obtain rfl := hr.eq_temporary h.ways hm
  obtain rfl := hr.eq_target h.ways hl
  exact ⟨t, ht.entry, hbytes,
    hmoved.resolve_left fun hsame => Spot.temporary_ne_target hsame.1.symm⟩

variable [DecidableEq ι]

/-- What has to be shown of a new position of one caller, and of the others with the new disk. -/
theorem Safe.update (h : Safe r k₀ p old w) (hr : Rivals r k₀ p)
    (hways : SameWays w.disk.store k'.store)
    (hlock : ∀ {c n}, k₀.store.locate? true (r i).lockPath = .ok c →
      w.disk.entryAt? c = some (.file n) → k'.entryAt? c = some (.file n))
    (hopened : ∀ {n}, pos.lock? = some n →
      ∃ c, k₀.store.locate? true (r i).lockPath = .ok c ∧ k'.entryAt? c = some (.file n))
    (hheld : ∀ {n}, pos.held? = some n →
      (k'.files n).locked = true ∧ ∀ j ≠ i, (w.positions j).held? = none)
    (hothers : ∀ {j n}, j ≠ i → (w.positions j).held? = some n →
      (k'.files n).locked = true ∧ (r j).Prepared k₀ k' p (w.positions j))
    (hprepared : (r i).Prepared k₀ k' p pos)
    (htarget : ∃ n, k'.entryAt? p.target = some (.file n) ∧ ((k'.files n).bytes = old ∨
      ∃ j, (Function.update w.positions i pos j).hasReplaced ∧
        (k'.files n).bytes = (r j).bytes)) :
    Safe r k₀ p old (w.update i (k', pos)) where
  ways := h.ways.trans hways
  opened {j n} hj := by
    by_cases hji : j = i
    · subst hji
      simp only [World.update, Function.update_self] at hj
      exact hopened hj
    · simp only [World.update, Function.update_of_ne hji] at hj
      obtain ⟨c, hc, hn⟩ := h.opened hj
      exact ⟨c, hc, hlock (hr.lockPath_eq j i ▸ hc) hn⟩
  locked {j n} hj := by
    by_cases hji : j = i
    · subst hji
      simp only [World.update, Function.update_self] at hj
      exact (hheld hj).1
    · simp only [World.update, Function.update_of_ne hji] at hj
      exact (hothers hji hj).1
  alone {j₁ j₂ n m} h₁ h₂ := by
    by_cases hj₁ : j₁ = i <;> by_cases hj₂ : j₂ = i
    · rw [hj₁, hj₂]
    · subst hj₁
      simp only [World.update, Function.update_self, Function.update_of_ne hj₂] at h₁ h₂
      rw [(hheld h₁).2 j₂ hj₂] at h₂
      cases h₂
    · subst hj₂
      simp only [World.update, Function.update_self, Function.update_of_ne hj₁] at h₁ h₂
      rw [(hheld h₂).2 j₁ hj₁] at h₁
      cases h₁
    · simp only [World.update, Function.update_of_ne hj₁, Function.update_of_ne hj₂] at h₁ h₂
      exact h.alone h₁ h₂
  prepared j := by
    by_cases hji : j = i
    · subst hji
      simpa only [World.update, Function.update_self] using hprepared
    · simp only [World.update, Function.update_of_ne hji]
      cases hheld : (w.positions j).held? with
      | none => exact prepared_of_not_held _ _ _ _ hheld
      | some n => exact (hothers hji hheld).2
  target := htarget

/-- The target is as it was when it has not been touched and a caller that has replaced it is still
known to have done so. -/
theorem Safe.target_update (h : Safe r k₀ p old w)
    (hsame : ∀ {n}, w.disk.entryAt? p.target = some (.file n) →
      k'.entryAt? p.target = some (.file n) ∧ k'.files n = w.disk.files n)
    (hreplaced : (w.positions i).hasReplaced → pos.hasReplaced) :
    ∃ n, k'.entryAt? p.target = some (.file n) ∧ ((k'.files n).bytes = old ∨
      ∃ j, (Function.update w.positions i pos j).hasReplaced ∧
        (k'.files n).bytes = (r j).bytes) := by
  obtain ⟨n, hn, hbytes⟩ := h.target
  obtain ⟨hn', hfile⟩ := hsame hn
  refine ⟨n, hn', ?_⟩
  rw [hfile]
  refine hbytes.imp_right fun ⟨j, hj, hbytes⟩ => ⟨j, ?_, hbytes⟩
  by_cases hji : j = i
  · subst hji
    rw [Function.update_self]
    exact hreplaced hj
  · rwa [Function.update_of_ne hji]

/-- A caller that does not hold the lock gets to a position without a change to the disk. -/
theorem Safe.stay (h : Safe r k₀ p old w) (hr : Rivals r k₀ p)
    (hopened : ∀ {n}, pos.lock? = some n →
      ∃ c, k₀.store.locate? true (r i).lockPath = .ok c ∧ w.disk.entryAt? c = some (.file n))
    (hheld : pos.held? = none) (hreplaced : (w.positions i).hasReplaced → pos.hasReplaced) :
    Safe r k₀ p old (w.update i (w.disk, pos)) :=
  h.update hr (.refl _) (fun _ he => he) hopened (by simp [hheld])
    (fun _ hj => ⟨h.locked hj, h.prepared _⟩) (prepared_of_not_held _ _ _ _ hheld)
    (h.target_update (fun he => ⟨he, rfl⟩) hreplaced)

/-- A caller that holds the lock does something with its temporary file. -/
theorem Safe.hold (h : Safe r k₀ p old w) (hr : Rivals r k₀ p)
    (hi : (w.positions i).held? = some n) (hpos : pos.held? = some n)
    (hways : SameWays w.disk.store k'.store)
    (hoff : Disk.SameOff (p.temporary (r i).process) w.disk k')
    (hprepared : (r i).Prepared k₀ k' p pos)
    (hreplaced : (w.positions i).hasReplaced → pos.hasReplaced) :
    Safe r k₀ p old (w.update i (k', pos)) := by
  obtain ⟨c, hc, hn⟩ := h.opened (lock?_of_held? hi)
  have hlock : ∀ {c m}, k₀.store.locate? true (r i).lockPath = .ok c →
      w.disk.entryAt? c = some (.file m) →
      k'.entryAt? c = some (.file m) ∧ k'.files m = w.disk.files m :=
    fun hc he => hoff.file_entry ((hr.lock_apart i _ hc).2 i) he
  refine h.update hr hways (fun hc he => (hlock hc he).1) (fun hm => ?_) (fun hm => ?_)
    (fun hj hheld => ?_) hprepared
    (h.target_update (fun he => hoff.file_entry Spot.temporary_ne_target.symm he) hreplaced)
  · rw [lock?_of_held? hpos] at hm
    cases hm
    exact ⟨c, hc, (hlock hc hn).1⟩
  · rw [hpos] at hm
    cases hm
    exact ⟨by rw [(hlock hc hn).2]; exact h.locked hi, fun j hj => h.not_held_of_ne hi hj⟩
  · rw [h.not_held_of_ne hi hj] at hheld
    cases hheld

/-- A caller that holds the lock makes a change to its temporary file. -/
theorem Safe.change (h : Safe r k₀ p old w) (hr : Rivals r k₀ p)
    (hi : (w.positions i).held? = some n) (hpos : pos.held? = some n) {t : Nat}
    (ht : (r i).HasTemporary k₀ w.disk p t) (f : File → File)
    (hprepared : (r i).Prepared k₀ (w.disk.change t f) p pos)
    (hreplaced : (w.positions i).hasReplaced → pos.hasReplaced) :
    Safe r k₀ p old (w.update i (w.disk.change t f, pos)) :=
  h.hold hr hi hpos (Disk.sameWays_change ht.entry f) (Disk.sameOff_change ht.entry f) hprepared
    hreplaced

/-! ### The steps -/

theorem Safe.step_openLock (h : Safe r k₀ p old w) (hr : Rivals r k₀ p)
    (hi : w.positions i = .openLock) : Safe r k₀ p old (w.next r (.step i)) := by
  have hnot : ¬(w.positions i).hasReplaced := by simp [hi, Position.hasReplaced]
  rw [World.next, hi, act]
  cases hopen : w.disk.openFile (r i).lockPath with
  | error fault => exact h.stay hr (by simp [Position.lock?, Position.held?]) rfl hnot.elim
  | ok opened =>
    obtain ⟨k', n⟩ := opened
    obtain ⟨c, hlocate, hn, -, hmade⟩ := Disk.openFile_eq_ok hopen
    have hc := h.ways.locate?_eq_ok_iff.1 hlocate
    have hopened : ∀ {m}, (Position.takeLock n).lock? = some m →
        ∃ c, k₀.store.locate? true (r i).lockPath = .ok c ∧ k'.entryAt? c = some (.file m) := by
      rintro m ⟨⟩
      exact ⟨c, hc, hn⟩
    obtain rfl | ⟨hnone, rfl⟩ := hmade
    · exact h.stay hr hopened rfl hnot.elim
    · -- The lock file is new, so nobody has opened it yet.
      have hfirst : ∀ {j m}, (w.positions j).lock? ≠ some m := fun {j m} hj => by
        obtain ⟨c', hc', hm⟩ := h.opened hj
        rw [hr.lockPath_eq j i, hc] at hc'
        cases hc'
        rw [hnone] at hm
        cases hm
      refine h.update hr (Disk.sameWays_openFile hopen) (fun hc' he => ?_) hopened
        (by simp [Position.held?]) (fun _ hj => absurd (lock?_of_held? hj) hfirst) trivial
        (h.target_update (fun he => (Disk.sameOff_create _ _).file_entry
          (hr.lock_apart i c hc).1.symm he) hnot.elim)
      rw [hc] at hc'
      cases hc'
      rw [hnone] at he
      cases he

theorem Safe.step_takeLock (h : Safe r k₀ p old w) (hr : Rivals r k₀ p)
    (hi : w.positions i = .takeLock n) : Safe r k₀ p old (w.next r (.step i)) := by
  have hnot : ¬(w.positions i).hasReplaced := by simp [hi, Position.hasReplaced]
  rw [World.next, hi, act]
  split
  · exact h.stay hr (by simp [Position.lock?, Position.held?]) rfl hnot.elim
  · next hfree =>
    have hlock : (w.positions i).lock? = some n := by rw [hi]; rfl
    obtain ⟨c, hc, hn⟩ := h.opened hlock
    have hnone : ∀ {j}, (w.positions j).held? = none := fun {j} => by
      cases hj : (w.positions j).held? with
      | none => rfl
      | some m =>
        have hlocked := h.locked hj
        rw [h.lock_unique hr (lock?_of_held? hj) hlock] at hlocked
        exact absurd hlocked hfree
    refine h.update hr (Disk.sameWays_change hn _) (fun _ he => he) ?_ ?_
      (fun _ hj => ?_) trivial (h.target_update (fun he => (Disk.sameOff_change hn _).file_entry
        (hr.lock_apart i c hc).1.symm he) hnot.elim)
    · rintro m ⟨⟩
      exact ⟨c, hc, hn⟩
    · rintro m ⟨⟩
      exact ⟨by simp [Disk.change], fun j _ => hnone⟩
    · rw [hnone] at hj
      cases hj

/-- A caller that holds the lock gives up with its temporary file. -/
theorem Safe.giveUp (h : Safe r k₀ p old w) (hr : Rivals r k₀ p)
    (hi : (w.positions i).held? = some n) (hnot : ¬(w.positions i).hasReplaced) (e : StoreError) :
    Safe r k₀ p old (w.update i (w.disk, .removeTemporary n e)) :=
  h.hold hr hi rfl (.refl _) (.refl _ _) trivial hnot.elim

theorem Safe.step_openTemporary (h : Safe r k₀ p old w) (hr : Rivals r k₀ p)
    (hi : w.positions i = .openTemporary n) : Safe r k₀ p old (w.next r (.step i)) := by
  have hheld : (w.positions i).held? = some n := by rw [hi]; rfl
  have hnot : ¬(w.positions i).hasReplaced := by simp [hi, Position.hasReplaced]
  rw [World.next, hi, act]
  cases hopen : w.disk.openFile (r i).temporaryPath with
  | error fault => exact h.giveUp hr hheld hnot _
  | ok opened =>
    obtain ⟨k', t⟩ := opened
    obtain ⟨l, hlocate, ht, -, hmade⟩ := Disk.openFile_eq_ok hopen
    obtain rfl := hr.eq_temporary h.ways hlocate
    have hoff : Disk.SameOff (p.temporary (r i).process) w.disk k' := by
      obtain rfl | ⟨-, rfl⟩ := hmade
      · exact .refl _ _
      · exact Disk.sameOff_create _ _
    refine h.hold hr hheld rfl
      ((Disk.sameWays_openFile hopen).trans (Disk.sameWays_change ht _))
      (hoff.trans (Disk.sameOff_change ht _)) ⟨⟨h.ways.locate?_eq_ok_iff.1 hlocate, ht⟩, ?_⟩
      hnot.elim
    simp [Disk.change]

theorem overwritten_empty (new : ByteArray) : overwritten .empty new = new := by
  have hnone : ByteArray.empty.extract new.size ByteArray.empty.size = .empty := by simp
  rw [overwritten, hnone, ByteArray.append_empty]

theorem Safe.step_fillTemporary (h : Safe r k₀ p old w) (hr : Rivals r k₀ p) {t : Nat}
    (hi : w.positions i = .fillTemporary n t) : Safe r k₀ p old (w.next r (.step i)) := by
  have hheld : (w.positions i).held? = some n := by rw [hi]; rfl
  have hnot : ¬(w.positions i).hasReplaced := by simp [hi, Position.hasReplaced]
  have hprepared := h.prepared i
  rw [hi] at hprepared
  obtain ⟨ht, hempty⟩ := hprepared
  rw [World.next, hi, act]
  refine h.change hr hheld rfl ht _ ⟨⟨ht.locate, ht.entry⟩, ?_⟩ hnot.elim
  simp [Disk.change, hempty, overwritten_empty]

theorem Safe.step_setMode (h : Safe r k₀ p old w) (hr : Rivals r k₀ p) {t : Nat}
    (hi : w.positions i = .setMode n t) : Safe r k₀ p old (w.next r (.step i)) := by
  have hheld : (w.positions i).held? = some n := by rw [hi]; rfl
  have hnot : ¬(w.positions i).hasReplaced := by simp [hi, Position.hasReplaced]
  have hprepared := h.prepared i
  rw [hi] at hprepared
  obtain ⟨ht, hbytes⟩ := hprepared
  rw [World.next, hi, act]
  refine h.change hr hheld rfl ht _ ⟨⟨ht.locate, ht.entry⟩, ?_⟩ hnot.elim
  simp [Disk.change, hbytes]

theorem Safe.step_flush (h : Safe r k₀ p old w) (hr : Rivals r k₀ p) {t : Nat}
    (hi : w.positions i = .flush n t) : Safe r k₀ p old (w.next r (.step i)) := by
  have hheld : (w.positions i).held? = some n := by rw [hi]; rfl
  have hnot : ¬(w.positions i).hasReplaced := by simp [hi, Position.hasReplaced]
  have hprepared := h.prepared i
  rw [hi] at hprepared
  rw [World.next, hi, act]
  exact h.hold hr hheld rfl (.refl _) (.refl _ _) ⟨t, hprepared⟩ hnot.elim

theorem Safe.step_moveIntoPlace (h : Safe r k₀ p old w) (hr : Rivals r k₀ p)
    (hi : w.positions i = .moveIntoPlace n) : Safe r k₀ p old (w.next r (.step i)) := by
  have hheld : (w.positions i).held? = some n := by rw [hi]; rfl
  have hnot : ¬(w.positions i).hasReplaced := by simp [hi, Position.hasReplaced]
  rw [World.next, hi, act]
  cases hrename : w.disk.rename (r i).temporaryPath (r i).target with
  | error fault => exact h.giveUp hr hheld hnot _
  | ok k' =>
    obtain ⟨t, ht, hbytes, rfl⟩ := h.rename_eq_ok hr hi hrename
    obtain ⟨c, hc, hn⟩ := h.opened (lock?_of_held? hheld)
    have hlock : ∀ {c m}, k₀.store.locate? true (r i).lockPath = .ok c →
        w.disk.entryAt? c = some (.file m) →
        (w.disk.move (p.temporary (r i).process) p.target).entryAt? c = some (.file m) := by
      intro c m hc he
      obtain ⟨htarget, htemporary⟩ := hr.lock_apart i c hc
      rw [Disk.entryAt?_move ht (Disk.ne_nil_of_file he), if_neg htarget.symm,
        if_neg (htemporary i).symm, he]
    have hways : SameWays w.disk.store
        (w.disk.move (p.temporary (r i).process) p.target).store := by
      have hstore := Disk.store_rename w.disk (r i).temporaryPath (r i).target
      rw [hrename] at hstore
      refine sameWays_rename hstore.symm (fun hl => ?_) (fun hl target => ?_)
      · obtain rfl := hr.eq_temporary h.ways hl
        exact fileOrNone_of_file (Disk.node?_of_file ht)
      · obtain rfl := hr.eq_target h.ways hl
        obtain ⟨n, hn, -⟩ := h.target
        simp [Disk.node?_of_file hn]
    refine h.update hr hways hlock ?_ ?_ (fun hj hheld' => ?_) trivial ⟨t, ?_, .inr ⟨i, ?_, hbytes⟩⟩
    · rintro m ⟨⟩
      exact ⟨c, hc, hlock hc hn⟩
    · rintro m ⟨⟩
      exact ⟨h.locked hheld, fun j hj => h.not_held_of_ne hheld hj⟩
    · rw [h.not_held_of_ne hheld hj] at hheld'
      cases hheld'
    · rw [Disk.entryAt?_move ht Spot.target_ne_nil, if_pos rfl]
    · rw [Function.update_self]
      rfl

theorem Safe.step_removeTemporary (h : Safe r k₀ p old w) (hr : Rivals r k₀ p) {e : StoreError}
    (hi : w.positions i = .removeTemporary n e) : Safe r k₀ p old (w.next r (.step i)) := by
  have hheld : (w.positions i).held? = some n := by rw [hi]; rfl
  have hnot : ¬(w.positions i).hasReplaced := by simp [hi, Position.hasReplaced]
  rw [World.next, hi, act]
  rcases Disk.remove_cases w.disk (r i).temporaryPath with hsame | ⟨l, hl, hdirectory, hunlink⟩
  · rw [hsame]
    exact h.hold hr hheld rfl (.refl _) (.refl _ _) trivial hnot.elim
  · obtain rfl := hr.eq_temporary h.ways hl
    rw [hunlink]
    refine h.hold hr hheld rfl ?_ (Disk.sameOff_unlink _ _) trivial hnot.elim
    rw [Disk.store_unlink]
    refine sameWays_erase ⟨hdirectory, fun target hlink => ?_⟩
    exact (hr.overwrites i).temporary_ne_link target ((h.ways.link _ _).1 hlink)

theorem Safe.step_releaseLock (h : Safe r k₀ p old w) (hr : Rivals r k₀ p)
    {result : Except StoreError Unit} (hi : w.positions i = .releaseLock n result) :
    Safe r k₀ p old (w.next r (.step i)) := by
  have hheld : (w.positions i).held? = some n := by rw [hi]; rfl
  obtain ⟨c, hc, hn⟩ := h.opened (lock?_of_held? hheld)
  have hreplaced : (w.positions i).hasReplaced → (Position.finished result).hasReplaced := by
    rw [hi]
    cases result with
    | error e => exact id
    | ok _ => exact id
  rw [World.next, hi, act]
  refine h.update hr (Disk.sameWays_change hn _) (fun _ he => he)
    (by simp [Position.lock?, Position.held?]) (by simp [Position.held?]) (fun hj hheld' => ?_)
    trivial (h.target_update (fun he => (Disk.sameOff_change hn _).file_entry
      (hr.lock_apart i c hc).1.symm he) hreplaced)
  rw [h.not_held_of_ne hheld hj] at hheld'
  cases hheld'

/-- Each step of a caller keeps the others and the target safe. -/
theorem Safe.step (h : Safe r k₀ p old w) (hr : Rivals r k₀ p) (i : ι) :
    Safe r k₀ p old (w.next r (.step i)) := by
  cases hi : w.positions i with
  | openLock => exact h.step_openLock hr hi
  | takeLock n => exact h.step_takeLock hr hi
  | openTemporary n => exact h.step_openTemporary hr hi
  | fillTemporary n t => exact h.step_fillTemporary hr hi
  | setMode n t => exact h.step_setMode hr hi
  | flush n t => exact h.step_flush hr hi
  | moveIntoPlace n => exact h.step_moveIntoPlace hr hi
  | removeTemporary n e => exact h.step_removeTemporary hr hi
  | releaseLock n result => exact h.step_releaseLock hr hi
  | finished result =>
    rw [World.next, hi, act]
    refine h.stay hr (by simp [Position.lock?, Position.held?]) rfl ?_
    rw [hi]
    exact id

theorem Safe.fail (h : Safe r k₀ p old w) (hr : Rivals r k₀ p) (i : ι) (e : StoreError) :
    Safe r k₀ p old (w.next r (.fail i e)) := by
  rw [World.next]
  have hnothing : ∀ {result : Except StoreError Unit} {n},
      (Position.finished result).lock? = some n →
      ∃ c, k₀.store.locate? true (r i).lockPath = .ok c ∧ w.disk.entryAt? c = some (.file n) := by
    simp [Position.lock?, Position.held?]
  cases hi : w.positions i with
  | openLock | takeLock n =>
    exact h.stay hr hnothing rfl (by simp [hi, Position.hasReplaced])
  | openTemporary n | fillTemporary n t | setMode n t | flush n t | moveIntoPlace n =>
    exact h.giveUp hr (by rw [hi]; rfl) (by simp [hi, Position.hasReplaced]) e
  | removeTemporary n e' =>
    exact h.hold hr (by rw [hi]; rfl) rfl (.refl _) (.refl _ _) trivial
      (by simp [hi, Position.hasReplaced])
  | releaseLock n result =>
    refine h.stay hr hnothing rfl ?_
    rw [hi]
    cases result <;> exact id
  | finished result =>
    refine h.stay hr hnothing rfl ?_
    rw [hi]
    exact id

theorem Safe.breakOff (h : Safe r k₀ p old w) (hr : Rivals r k₀ p) (i : ι) (e : StoreError)
    (bytes : ByteArray) : Safe r k₀ p old (w.next r (.breakOff i e bytes)) := by
  rw [World.next]
  split
  · next n t hi =>
    have hprepared := h.prepared i
    rw [hi] at hprepared
    exact h.change hr (by rw [hi]; rfl) rfl hprepared.1 _ trivial
      (by simp [hi, Position.hasReplaced])
  · exact h

theorem Safe.next (h : Safe r k₀ p old w) (hr : Rivals r k₀ p) (event : Event ι) :
    Safe r k₀ p old (w.next r event) := by
  cases event with
  | step i => exact h.step hr i
  | fail i e => exact h.fail hr i e
  | breakOff i e bytes => exact h.breakOff hr i e bytes

theorem Safe.run (h : Safe r k₀ p old w) (hr : Rivals r k₀ p) (events : List (Event ι)) :
    Safe r k₀ p old (w.run r events) := by
  induction events generalizing w with
  | nil => exact h
  | cons event events ih => exact ih (h.next hr event)

end Update

/-! ### What the steps come to by name -/

section ByName

variable {ι : Type} {r : ι → Replacement} {k₀ : Disk} {p : Spot} {old : ByteArray} {w : World ι}
  {i : ι} {n t : Nat}

/-- A change to a temporary file that is open is made to the file to which its path leads. -/
theorem Safe.changeFile_temporary (h : Safe r k₀ p old w) (ht : (r i).HasTemporary k₀ w.disk p t)
    (f : File → File) :
    w.disk.store.changeFile (r i).temporaryPath f = .ok (w.disk.change t f).store := by
  rw [Disk.store_change ht.entry]
  exact changeFile_eq_ok (h.ways.locate?_eq_ok_iff.2 ht.locate) (Disk.node?_of_file ht.entry) f

/-- The lock file that is open is the one to which its path leads. -/
theorem Safe.find?_lock (h : Safe r k₀ p old w) (hn : (w.positions i).lock? = some n) :
    ∃ c, w.disk.entryAt? c = some (.file n) ∧
      w.disk.store.find? (r i).lockPath = .ok (c, .file (w.disk.files n)) := by
  obtain ⟨c, hc, hn⟩ := h.opened hn
  exact ⟨c, hn, find?_eq_ok_iff.2 ⟨h.ways.locate?_eq_ok_iff.2 hc, Disk.node?_of_file hn⟩⟩

/-- What refuses a request among rivals is an event, and not the disk. -/
theorem refusal?_store (r : Replacement) (k : Disk) (stage : Stage) :
    r.refusal? k.store stage = none := by
  rw [refusal?]
  cases r.request? stage <;> rfl

/-- In all that can happen, what a caller does to the files that it has open is what the step of its
replacement does to the files that it finds by name. -/
theorem Safe.act_eq_step (h : Safe r k₀ p old w) (i : ι) :
    (r i).step w.disk.store (w.positions i).stage =
      (((r i).act w.disk (w.positions i)).1.store, ((r i).act w.disk (w.positions i)).2.stage) := by
  have hgranted : (r i).refusal? w.disk.store (w.positions i).stage = none :=
    refusal?_store (r i) w.disk _
  have hprepared := h.prepared i
  rw [step_of_granted hgranted]
  cases hi : w.positions i with
  | openLock =>
    rw [Position.stage, perform, act]
    cases hopen : w.disk.openFile (r i).lockPath with
    | error fault =>
      rw [Disk.openFile_eq_error hopen]
      rfl
    | ok opened =>
      obtain ⟨l, -, -, hstore, -⟩ := Disk.openFile_eq_ok hopen
      rw [hstore]
      rfl
  | takeLock n =>
    obtain ⟨c, hc, hfind⟩ := h.find?_lock (i := i) (n := n) (by rw [hi]; rfl)
    rw [Position.stage, perform, act, takeLock, hfind]
    simp only
    split
    · rfl
    · rw [Disk.store_change hc]
      rfl
  | openTemporary n =>
    rw [Position.stage, perform, act, openTemporary]
    cases hopen : w.disk.openFile (r i).temporaryPath with
    | error fault =>
      rw [Disk.openFile_eq_error hopen]
      rfl
    | ok opened =>
      obtain ⟨l, -, ht, hstore, -⟩ := Disk.openFile_eq_ok hopen
      rw [hstore]
      simp only
      rw [Disk.store_change ht]
      rfl
  | fillTemporary n t =>
    rw [hi] at hprepared
    obtain ⟨ht, hempty⟩ := hprepared
    rw [Position.stage, perform, act, fillTemporary, h.changeFile_temporary ht, proceed]
    simp only [Disk.change, hempty, overwritten_empty]
    rfl
  | setMode n t =>
    rw [hi] at hprepared
    rw [Position.stage, perform, act, setMode, h.changeFile_temporary hprepared.1]
    rfl
  | flush n t => rfl
  | moveIntoPlace n =>
    rw [Position.stage, perform, act, ← Disk.store_rename]
    cases w.disk.rename (r i).temporaryPath (r i).target with
    | error fault => rfl
    | ok k => rfl
  | removeTemporary n e =>
    rw [Position.stage, perform, act, Disk.store_remove]
    rfl
  | releaseLock n result =>
    obtain ⟨c, hc, hfind⟩ := h.find?_lock (i := i) (n := n) (by rw [hi]; rfl)
    rw [Position.stage, perform, act, unlock, changeFile, hfind, Disk.store_change hc]
    rfl
  | finished result => rfl

end ByName

/-! ### All callers together -/

section Main

variable {ι : Type} [DecidableEq ι] {r : ι → Replacement} {k : Disk} {p : Spot} {f : File}

omit [DecidableEq ι] in
/-- Callers that replace the file at one place of a tree are rivals, when no link stands in the
place of its lock file or of a temporary file. -/
theorem rivals_of_isTree {dir : Location} {name : String} (hs : k.store.IsTree)
    (hf : k.store.node? (dir ++ [name]) = some (.file f))
    (htarget : ∀ i, (r i).target = pathOf (dir ++ [name]))
    (htemporary : ∀ i target,
      k.store.node? (temporaryOf (r i).process (dir ++ [name])) ≠ some (.link target))
    (hlock : ∀ target, k.store.node? (lockOf (dir ++ [name])) ≠ some (.link target)) :
    Rivals r k ⟨folderOf dir, dir, name⟩ where
  overwrites i :=
    { target := (htarget i).trans (pathOf_concat dir name)
      isName := hs.isName_getLast hf
      reaches := hs.reaches_folderOf (by simpa using hs.parent hf (by simp))
      file := ⟨f, hf⟩
      temporary_ne_link := by simpa [Spot.temporary] using htemporary i }
  lock_apart i c hc := by
    rw [Replacement.lockPath, htarget i] at hc
    obtain rfl := eq_lockOf_of_locate? hs hf hlock hc
    rw [lockOf_concat]
    exact ⟨Spot.lock_ne_target (p := ⟨_, dir, name⟩),
      fun j => (Spot.temporary_ne_lock (p := ⟨_, dir, name⟩)).symm⟩

/-- Whatever happens while callers replace the same file:

* the target is a file, with its bytes from the beginning or all bytes of one caller that has
  replaced it;
* at most one caller is between taking the lock and releasing it;
* what a caller moves into the place of the target has just the bytes of that caller;
* each step of a caller is the step of its replacement in the store that is seen by names. -/
theorem rivals_replace_whole_files (hr : Rivals r k p)
    (hf : k.store.node? p.target = some (.file f)) (events : List (Event ι)) :
    let w := (World.start k).run r events
    (∃ g, w.disk.store.node? p.target = some (.file g) ∧ (g.bytes = f.bytes ∨
      ∃ i, (w.positions i).hasReplaced ∧ g.bytes = (r i).bytes)) ∧
    (∀ i j, (w.positions i).held?.isSome → (w.positions j).held?.isSome → i = j) ∧
    (∀ i, ¬(w.positions i).hasReplaced → ((w.next r (.step i)).positions i).hasReplaced →
      ∃ g, (w.next r (.step i)).disk.store.node? p.target = some (.file g) ∧
        g.bytes = (r i).bytes) ∧
    ∀ i, ((w.next r (.step i)).disk.store, ((w.next r (.step i)).positions i).stage) =
      (r i).step w.disk.store (w.positions i).stage := by
  intro w
  obtain ⟨n, hn, rfl⟩ := Disk.exists_entryAt_of_node? hf
  have hsafe : Safe r k p (k.files n).bytes w := (safe_start r hn).run hr events
  refine ⟨?_, fun i j hi hj => ?_, fun i hbefore hbehind => ?_, fun i => ?_⟩
  · obtain ⟨m, hm, hbytes⟩ := hsafe.target
    exact ⟨_, Disk.node?_of_file hm, hbytes⟩
  · obtain ⟨a, ha⟩ := Option.isSome_iff_exists.1 hi
    obtain ⟨b, hb⟩ := Option.isSome_iff_exists.1 hj
    exact hsafe.alone ha hb
  · simp only [World.next, World.update, Function.update_self] at hbehind
    obtain ⟨a, k', ha, hrename, hact⟩ := exists_rename_of_hasReplaced (r i) hbefore hbehind
    obtain ⟨t, ht, hbytes, rfl⟩ := hsafe.rename_eq_ok hr ha hrename
    rw [World.next, World.update, hact]
    refine ⟨_, Disk.node?_of_file ?_, hbytes⟩
    exact (Disk.entryAt?_move ht Spot.target_ne_nil).trans (if_pos rfl)
  · rw [hsafe.act_eq_step i]
    simp [World.next, World.update]

/-- Two callers in one process share the path of their temporary file. One breaks off while it fills
that file and leaves some bytes in it, then the other one replaces the target. -/
theorem rivals_replace_whole_files_one_process :
    let k := ((Disk.empty []).create ["f"]).change 0 fun file =>
      { file with bytes := "old".toUTF8 }
    let p : Spot := ⟨folderOf [], [], "f"⟩
    let r : Bool → Replacement := fun second =>
      ⟨"/f", if second then "new".toUTF8 else "other".toUTF8, none, 7⟩
    let events : List (Event Bool) :=
      [.step false, .step true, .step false, .step false,
        .breakOff false (.io "/.f.7.tmp" .noSpace) "oth".toUTF8, .step false, .step false,
        .step true, .step true, .step true, .step true, .step true]
    let w := (World.start k).run r events
    Rivals r k p ∧ k.store.node? p.target = some (.file ⟨"old".toUTF8, File.defaultMode, false⟩) ∧
      ¬(w.positions true).hasReplaced ∧ ((w.next r (.step true)).positions true).hasReplaced ∧
      ∃ g, (w.next r (.step true)).disk.store.node? p.target = some (.file g) ∧
        g.bytes = "new".toUTF8 := by
  intro k p r events w
  have hstore : k.store =
      (Store.root []).put ["f"] (.file ⟨"old".toUTF8, File.defaultMode, false⟩) := by
    have hentry : ((Disk.empty []).create ["f"]).entryAt? ["f"] = some (.file 0) :=
      Disk.entryAt?_create_self (by decide)
    rw [show k.store = _ from Disk.store_change hentry _, Disk.store_create, Disk.store_empty,
      put_put_self]
    rfl
  have hname : IsName "f" := ⟨by decide, by decide, by decide, by decide⟩
  have hs : k.store.IsTree := by
    rw [hstore]
    exact (isTree_root []).put (node?_nil _) hname (by decide) (fileOrNone_of_none rfl)
  have hf : k.store.node? p.target =
      some (.file ⟨"old".toUTF8, File.defaultMode, false⟩) := by decide +kernel
  have hr : Rivals r k p := by
    have htarget : "/f" = pathOf ([] ++ ["f"]) := by decide
    refine rivals_of_isTree hs hf (fun _ => htarget) (fun _ target => ?_) fun target => ?_
    · have hnone : k.store.node? (temporaryOf 7 ([] ++ ["f"])) = none := by decide +kernel
      rw [hnone]
      simp
    · have hnone : k.store.node? (lockOf ([] ++ ["f"])) = none := by decide +kernel
      rw [hnone]
      simp
  have hbefore : ¬(w.positions true).hasReplaced := by decide +kernel
  have hbehind : ((w.next r (.step true)).positions true).hasReplaced := by decide +kernel
  exact ⟨hr, hf, hbefore, hbehind,
    (rivals_replace_whole_files hr hf events).2.2.1 true hbefore hbehind⟩

/-- What links do to callers. When the path of a temporary file is a link to the target, the caller
that opens it has emptied the target before anybody has replaced it. When the path of the lock file
is a link to the target, a caller that has replaced the target still holds the lock on the old file
while the next one takes the lock on the new file. When it is a link to a third file, the lock keeps
others out only until somebody replaces that file. -/
theorem links_defeat_rivals :
    let k := ((Disk.empty []).create ["f"]).change 0 fun file =>
      { file with bytes := "old".toUTF8 }
    let r : Bool → Replacement := fun second =>
      ⟨"/f", if second then "new".toUTF8 else "other".toUTF8, none, if second then 7 else 8⟩
    let events : List (Event Bool) := List.replicate 7 (.step false) ++ [.step true, .step true]
    let emptied := (World.start (k.link [".f.8.tmp"] "f")).run r (events.take 3)
    let shared := (World.start (k.link ["f.lock"] "f")).run r events
    let s := (((Store.root []).put ["f"] (.file ⟨"old".toUTF8, 0o644, false⟩)).put ["h"]
      (.file ⟨"h".toUTF8, 0o644, false⟩)).put ["f.lock"] (.link "h")
    (emptied.disk.store.node? ["f"] = some (.file ⟨.empty, 0o644, false⟩) ∧
        ∀ i, (emptied.positions i).hasReplaced = false) ∧
      (∀ i, (shared.positions i).held?.isSome) ∧
      ((s.lock "/f.lock").map fun s => (s.write 7 ⟨"/f"⟩ "new".toUTF8).2) =
        .ok (.error (.lockHeld "/f")) ∧
      ((s.lock "/f.lock").map fun s =>
        ((s.write 8 ⟨"/h"⟩ "z".toUTF8).1.write 7 ⟨"/f"⟩ "new".toUTF8).2) = .ok (.ok ()) := by
  intro k r events emptied shared s
  exact ⟨⟨by decide +kernel, by decide +kernel⟩, by decide +kernel, by decide +kernel,
    by decide +kernel⟩

end Main

end Replacement

end BlockEdit
