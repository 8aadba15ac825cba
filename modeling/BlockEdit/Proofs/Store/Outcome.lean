import BlockEdit.Proofs.Store.Exchange
import BlockEdit.Proofs.Store.Replacement
import BlockEdit.Proofs.Store.Directories

/-!
# How a replacement ends

A replacement ends in one of three ways (`Comes`): nothing has happened, there is a file to hold the
lock, or there is such a file and the target has been replaced. This is so whatever stands at the
target and at the lock file, as long as nothing stands in the place of the temporary file
(`comes_finish`).

`Clear` says of a store that this is so for the replacement of the file to which a path leads, and
that neither the path nor its lock file is a link that leads to nothing. From it follow the places
of all files that are concerned (`Clear.comes`).
-/

namespace BlockEdit

namespace Store

/-- The store with an empty file at a place where nothing stands. -/
def touch (s : Store) (k : Location) : Store :=
  match s.node? k with
  | none => s.put k (.file .empty)
  | some _ => s

/-- A link stands where the path leads, and it leads to nothing. -/
def Dangles (s : Store) (path : String) : Prop :=
  ∃ l target, s.locate? false path = .ok l ∧ s.node? l = some (.link target) ∧
    s.find? path = .error .notFound

section Touch

variable {s : Store} {k l : Location}

theorem touch_of_none (h : s.node? k = none) : s.touch k = s.put k (.file .empty) := by
  rw [touch, h]

theorem touch_of_some {n : FileNode} (h : s.node? k = some n) : s.touch k = s := by
  rw [touch, h]

theorem sameWays_touch : SameWays s (s.touch k) := by
  cases h : s.node? k with
  | none =>
    rw [touch_of_none h]
    exact sameWays_put (fileOrNone_of_none h)
  | some n =>
    rw [touch_of_some h]
    exact .refl s

end Touch

end Store

namespace Replacement

open Store

variable {r : Replacement} {s : Store} {k m l : Location} {f : File} {n : FileNode}
  {temporary : Except Fault Location}

/-- How a replacement ends that began in a store. -/
inductive Comes (r : Replacement) (s : Store) : Store × Except StoreError Unit → Prop
  /-- Nothing has happened. -/
  | refused (e : StoreError) : Comes r s (s, .error e)
  /-- There is a file to hold the lock. -/
  | failed {k : Location} (hk : s.locate? true r.lockPath = .ok k) (e : StoreError) :
    Comes r s (s.touch k, .error e)
  /-- There is a file to hold the lock, and the target was replaced. -/
  | replaced {k l : Location} (hk : s.locate? true r.lockPath = .ok k)
    (hl : s.locate? false r.target = .ok l) (h : s.FileOrNone l) :
    Comes r s ((s.touch k).put l (.file r.newFile), .ok ())

/-- The file stands at a place, or it is the one that is made there. Nobody holds the lock on it. -/
def Holds (s : Store) (k : Location) (f : File) : Prop :=
  (s.node? k = some (.file f) ∨ s.node? k = none ∧ f = .empty) ∧ f.locked = false

section Holds

variable (h : Holds s k f)

include h

theorem Holds.fileOrNone : s.FileOrNone k := by
  obtain ⟨hk | ⟨hk, -⟩, -⟩ := h
  · exact fileOrNone_of_file hk
  · exact fileOrNone_of_none hk

/-- The lock was taken and released. -/
theorem Holds.put_unlocked : s.put k (.file { f with locked := false }) = s.touch k := by
  have hf : { f with locked := false } = f := by rw [← h.2]
  rw [hf]
  obtain ⟨hk | ⟨hk, rfl⟩, -⟩ := h
  · rw [put_eq_self (fileOrNone_of_file hk).ne_nil hk, touch_of_some hk]
  · rw [touch_of_none hk]

theorem Holds.unlockAt : (s.put k (.file { f with locked := true })).unlockAt k = s.touch k := by
  rw [Store.unlockAt, node?_put_self h.fileOrNone.ne_nil]
  simp only [put_put_self]
  exact h.put_unlocked

/-- The lock is released when the file at another place has been replaced, or the lock file. -/
theorem Holds.unlockAt_put (hl : s.FileOrNone l) :
    ((s.put k (.file { f with locked := true })).put l (.file r.newFile)).unlockAt k =
      (s.touch k).put l (.file r.newFile) := by
  rw [← h.put_unlocked, Store.unlockAt]
  by_cases hlk : k = l
  · subst hlk
    rw [node?_put_self hl.ne_nil]
    simp only [put_put_self, newFile]
  · rw [node?_put_of_ne hl.ne_nil hlk, node?_put_self h.fileOrNone.ne_nil]
    simp only
    rw [put_comm (Ne.symm hlk), put_put_self]

/-- What comes of a temporary file that was made while the lock was held. -/
theorem Holds.comes_moved (hsites : Sites r s k (.ok m)) (hm : s.node? m = none) (hmk : m ≠ k) :
    Comes r s (((r.moved (s.put k (.file { f with locked := true })) m .empty).1).unlockAt k,
      (r.moved (s.put k (.file { f with locked := true })) m .empty).2) := by
  have hways : SameWays s (s.put k (.file { f with locked := true })) := sameWays_put h.fileOrNone
  have hm₁ : (s.put k (.file { f with locked := true })).node? m = none := by
    rw [node?_put_of_ne h.fileOrNone.ne_nil hmk, hm]
  have hunlockAt := h.unlockAt
  have hunlockAt_put := fun l => h.unlockAt_put (r := r) (l := l)
  generalize s.put k (.file { f with locked := true }) = s₁ at *
  have hfile := fileOrNone_of_none hm₁
  have hways' : SameWays s (s₁.put m (.file (r.filled .empty))) := hways.trans (sameWays_put hfile)
  have herase : (s₁.put m (.file (r.filled .empty))).erase m = s₁ := erase_put hfile.ne_nil hm₁
  rw [moved, settled]
  split
  · simp only [herase, hunlockAt]
    exact .failed hsites.locate_lock _
  cases hrename : (s₁.put m (.file (r.filled .empty))).rename r.temporaryPath r.target with
  | error fault =>
    simp only [herase, hunlockAt]
    exact .failed hsites.locate_lock _
  | ok s' =>
    obtain ⟨old, new, n, hold, hnew, hn, hdirectory, hmoved⟩ := rename_eq_ok hrename
    rw [hsites.locate_temporary false hways', Except.ok.injEq] at hold
    subst hold
    rw [node?_put_self hfile.ne_nil, Option.some.injEq] at hn
    subst hn
    have hnew := hways'.locate?_eq_ok_iff.1 hnew
    have hl : s.FileOrNone new :=
      ⟨fun hdir => hdirectory ((hways'.directory new).2 hdir), hsites.target_ne_link hnew⟩
    have hs' : s' = s₁.put new (.file r.newFile) := by
      obtain ⟨rfl, rfl⟩ | ⟨-, rfl⟩ := hmoved
      · rfl
      · rw [herase]
        rfl
    simp only [hs', hunlockAt_put new hl]
    exact .replaced hsites.locate_lock hnew hl

/-- What a replacement does while it holds the lock. -/
theorem Holds.comes_exchanged (hsites : Sites r s k temporary)
    (htemporary : ∀ m, temporary = .ok m → s.node? m = none ∧ m ≠ k) :
    let s' := s.put k (.file { f with locked := true })
    Comes r s ((r.exchanged temporary s').1.unlockAt k, (r.exchanged temporary s').2) := by
  intro s'
  have hnothing : ∀ m, temporary = .ok m → s'.node? m = none := fun m hm => by
    obtain ⟨hnone, hmk⟩ := htemporary m hm
    rw [node?_put_of_ne h.fileOrNone.ne_nil hmk, hnone]
  have hcleared : cleared temporary s' = s' := by
    unfold cleared
    split
    · rfl
    · next m =>
      have hnone := hnothing m rfl
      rw [if_neg (by simp [hnone]), erase_eq_self (fileOrNone_of_none hnone).ne_nil hnone]
  unfold exchanged
  split
  · simp only [hcleared, s', h.unlockAt]
    exact .failed hsites.locate_lock _
  cases temporary with
  | error fault =>
    simp only [s', h.unlockAt]
    exact .failed hsites.locate_lock _
  | ok m =>
    obtain ⟨hm, hmk⟩ := htemporary m rfl
    simp only [hnothing m rfl]
    exact h.comes_moved hsites hm hmk

/-- What a replacement does with a file that is to hold the lock. -/
theorem Holds.comes_guarded (hsites : Sites r s k temporary)
    (htemporary : ∀ m, temporary = .ok m → s.node? m = none ∧ m ≠ k) :
    Comes r s (r.guarded temporary s k f) := by
  have hput : s.put k (.file f) = s.touch k := by
    rw [← h.put_unlocked, ← h.2]
  rw [guarded]
  split
  · rw [hput]
    exact .failed hsites.locate_lock _
  · exact h.comes_exchanged hsites htemporary

end Holds

/-- How a replacement ends when nothing stands in the place of its temporary file. -/
theorem comes_finish (hsites : Sites r s k temporary)
    (htemporary : ∀ m, temporary = .ok m → s.node? m = none ∧ m ≠ k) :
    Comes r s (r.finish s .openLock) := by
  rw [finish_openLock hsites]
  split
  · exact .refused _
  cases hk : s.node? k with
  | none => exact Holds.comes_guarded ⟨.inr ⟨hk, rfl⟩, rfl⟩ hsites htemporary
  | some n =>
    cases n with
    | file f =>
      by_cases hlocked : f.locked = true
      · have hput := put_eq_self (fileOrNone_of_file hk).ne_nil hk
        simp only [guarded, hlocked, Bool.true_or, if_true, hput]
        exact .refused _
      · exact Holds.comes_guarded ⟨.inl hk, by simpa using hlocked⟩ hsites htemporary
    | directory => exact .refused _
    | link target => exact .refused _

/-! ### The places of the files -/

/-- Nothing stands in the place of the temporary file of a replacement. Its target is not a link,
and its lock file is not one that leads to nothing. -/
structure Clear (r : Replacement) (s : Store) : Prop where
  target : ∀ l, s.locate? false r.target = .ok l → ∀ t, s.node? l ≠ some (.link t)
  lock : ¬s.Dangles r.lockPath
  temporary : ∀ m, s.locate? false r.temporaryPath = .ok m → s.node? m = none

/-- A text is what is in front of its last name, and that name. -/
theorem exists_folder (text : String) :
    ∃ (folder : List Char) (name : String), text = String.ofList (folder ++ name.toList) ∧
      IsFolder folder ∧ '/' ∉ name.toList := by
  have h : ∀ cs : List Char, ∃ folder name, cs = folder ++ name ∧ IsFolder folder ∧ '/' ∉ name := by
    intro cs
    induction cs using List.reverseRecOn with
    | nil => exact ⟨[], [], rfl, .inl rfl, by simp⟩
    | append_singleton cs c ih =>
      by_cases hc : c = '/'
      · exact ⟨cs ++ [c], [], by simp, .inr ⟨cs, by rw [hc]⟩, by simp⟩
      · obtain ⟨folder, name, rfl, hfolder, hslash⟩ := ih
        exact ⟨folder, name ++ [c], by simp, hfolder, by simp [hslash, Ne.symm hc]⟩
  obtain ⟨folder, name, htext, hfolder, hslash⟩ := h text.toList
  refine ⟨folder, String.ofList name, ?_, hfolder, by rwa [String.toList_ofList]⟩
  rw [String.toList_ofList, ← htext, String.ofList_toList]

section Places

variable {folder : List Char} {dir : Location} {name : String}

/-- A path ends with a name, or its last name is a step up or stays in the directory. -/
theorem isName_of_fileOrNone (hs : s.IsTree) (hfolder : IsFolder folder)
    (hslash : '/' ∉ name.toList)
    (hl : s.locate? false (String.ofList (folder ++ name.toList)) = .ok l)
    (hfile : s.FileOrNone l) : IsName name := by
  by_contra hname
  refine hfile.1 (hs.directory_of_getLast? (fun x hx => ?_) hl)
  rw [String.toList_ofList] at hx
  by_cases hempty : name = ""
  · -- The path is its folder.
    rw [hempty, String.toList_empty, List.append_nil, names_eq] at hx
    by_cases hnames : directoryNames folder = []
    · simp [hnames] at hx
    · obtain ⟨front, rfl⟩ := hfolder.resolve_left fun h => hnames (by rw [h]; rfl)
      rw [if_pos ⟨by simp, hnames⟩] at hx
      exact .inl (by simpa using hx.symm)
  · rw [names_folder hfolder hempty hslash, List.getLast?_concat, Option.mem_some_iff] at hx
    subst hx
    rw [isName_iff] at hname
    tauto

variable (h : r.Clear s)
  (htarget : r.target = String.ofList (folder ++ name.toList)) (hfolder : IsFolder folder)
  (hslash : '/' ∉ name.toList)

include h htarget hfolder hslash

/-- The temporary path leads to one place all along, if it leads anywhere. -/
theorem Clear.locate?_temporary (hreaches : Reaches s folder dir) {s' : Store} (follow : Bool)
    (hways : SameWays s s') :
    s'.locate? follow r.temporaryPath =
      (admits folder (temporaryName r.process name)).map
        fun _ => dir ++ [temporaryName r.process name] := by
  have hname := isName_temporaryName r.process hslash
  have hpath := temporaryPath_eq hfolder hslash htarget
  rw [hpath, locate?_beside (hreaches.mono hways.keepsWays) hname
    fun hadmits => .inr fun t ht => ?_]
  have hnone := h.temporary (dir ++ [temporaryName r.process name]) (by
    rw [hpath, locate?_beside hreaches hname fun _ => .inl rfl, hadmits, Except.map])
  rw [(hways.link _ t).1 ht] at hnone
  cases hnone

/-- The places of a replacement whose lock file can be found. -/
theorem Clear.sites (hk : s.locate? true r.lockPath = .ok k) :
    ∃ temporary, Sites r s k temporary ∧
      ∀ m, temporary = .ok m → s.locate? false r.temporaryPath = .ok m := by
  obtain ⟨dir, hlock⟩ := nameAt_of_locate? (lockPath_eq htarget) hfolder (isName_lockName hslash) hk
  have hlocate : ∀ {s'} follow, SameWays s s' → s'.locate? follow r.temporaryPath = _ :=
    fun follow hways => h.locate?_temporary htarget hfolder hslash hlock.reaches follow hways
  refine ⟨_, ⟨hk, hlocate, fun hm t => ?_, h.target _⟩, fun m hm => (hlocate _ (.refl s)).trans hm⟩
  simp [h.temporary _ ((hlocate false (.refl s)).trans hm)]

end Places

/-- The lock file is not made in the place of the temporary file. -/
theorem Clear.lock_ne_temporary (h : r.Clear s) (hk : s.locate? true r.lockPath = .ok k)
    (hm : s.locate? false r.temporaryPath = .ok m) : m ≠ k := by
  obtain ⟨folder, name, htarget, hfolder, hslash⟩ := exists_folder r.target
  obtain ⟨dir, hlock⟩ := nameAt_of_locate? (lockPath_eq htarget) hfolder (isName_lockName hslash) hk
  obtain ⟨dir', htemporary⟩ := nameAt_of_locate? (temporaryPath_eq hfolder hslash htarget) hfolder
    (isName_temporaryName r.process hslash) hm
  rintro rfl
  have hnone := h.temporary m hm
  -- Otherwise there would be a link to the place of the temporary file, and it would dangle.
  have hlink : ∀ t, s.node? (dir ++ [lockName name]) ≠ some (.link t) := fun t ht => by
    refine h.lock ⟨_, t, hlock.locate?_eq (.inl rfl), ht, ?_⟩
    simp only [find?, hk, hnone]
  rw [hlock.locate?_eq (.inr hlink), Except.ok.injEq] at hk
  rw [htemporary.locate?_eq (.inl rfl), Except.ok.injEq] at hm
  have hnames := List.append_inj_right' (hm.trans hk.symm) rfl
  exact temporaryName_ne_lockName r.process name name (List.singleton_inj.1 hnames)

/-- How a replacement ends that is clear. -/
theorem Clear.comes (h : r.Clear s) : Comes r s (r.finish s .openLock) := by
  obtain ⟨folder, name, htarget, hfolder, hslash⟩ := exists_folder r.target
  cases hk : s.locate? true r.lockPath with
  | error fault =>
    rw [finish_openLock_of_error hk]
    exact .refused _
  | ok k =>
    obtain ⟨temporary, hsites, htemporary⟩ := h.sites htarget hfolder hslash hk
    exact comes_finish hsites fun m hm =>
      ⟨h.temporary m (htemporary m hm), h.lock_ne_temporary hk (htemporary m hm)⟩

/-- The target does not stand in the place of the temporary file. -/
theorem target_ne_temporary (hs : s.IsTree) (hl : s.locate? false r.target = .ok l)
    (hfile : s.FileOrNone l) (hm : s.locate? false r.temporaryPath = .ok m) : l ≠ m := by
  obtain ⟨folder, name, htarget, hfolder, hslash⟩ := exists_folder r.target
  rw [htarget] at hl
  have hname := isName_of_fileOrNone hs hfolder hslash hl hfile
  obtain ⟨dir, htemporary⟩ := nameAt_of_locate? (temporaryPath_eq hfolder hslash htarget) hfolder
    (isName_temporaryName r.process hslash) hm
  obtain ⟨dir', hplace⟩ := nameAt_of_locate? rfl hfolder hname hl
  rw [htemporary.locate?_eq (.inl rfl), Except.ok.injEq] at hm
  rw [hplace.locate?_eq (.inl rfl), Except.ok.injEq] at hl
  rintro rfl
  have hnames := List.append_inj_right' (hl.trans hm.symm) rfl
  exact temporaryName_ne r.process (List.singleton_inj.1 hnames).symm

end Replacement

end BlockEdit
