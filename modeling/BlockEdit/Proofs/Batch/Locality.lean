import BlockEdit.Proofs.Batch.Editing
import BlockEdit.Proofs.Store.Exchange
import BlockEdit.Proofs.Store.Sight
import Mathlib.Data.Set.Insert

/-!
# What an edit of a file depends on

In a store without links, an edit of a file looks at three places: those of the file, of its lock
file and of its temporary file (`writerPlaces`). Where two stores hold the same at these places, and
the path of the file leads to the same, the edit has the same result, it leaves the same there, and
it leaves all other places alone. `Local` puts this together, `finish_local` shows it of a
replacement by way of `finish_openLock`, and `editFile_local` of an edit.
-/

namespace BlockEdit

namespace Store

/-- The same stands in both stores at the places. -/
def AgreeOn (places : Set Location) (s t : Store) : Prop := ∀ k ∈ places, t.nodes[k]? = s.nodes[k]?

variable {places : Set Location} {s t t' s' : Store} {k l m : Location} {n : FileNode} {f : File}

namespace AgreeOn

theorem refl (places : Set Location) (s : Store) : AgreeOn places s s := fun _ _ => rfl

theorem trans {u : Store} (h : AgreeOn places s t) (h' : AgreeOn places t u) :
    AgreeOn places s u :=
  fun k hk => (h' k hk).trans (h k hk)

theorem node?_eq (h : AgreeOn places s t) (hk : k ∈ places) : t.node? k = s.node? k := by
  rw [node?, node?, h k hk]

theorem put (h : AgreeOn places s t) (l : Location) (n : FileNode) :
    AgreeOn places (s.put l n) (t.put l n) := fun k hk => by
  rw [getElem?_put, getElem?_put, h k hk]

theorem erase (h : AgreeOn places s t) (l : Location) : AgreeOn places (s.erase l) (t.erase l) :=
  fun k hk => by rw [getElem?_erase, getElem?_erase, h k hk]

end AgreeOn

theorem agreeOn_put (hl : l ∉ places) : AgreeOn places s (s.put l n) := fun k hk => by
  rw [getElem?_put, if_neg fun heq : l = k => hl (heq ▸ hk)]

theorem agreeOn_erase (hl : l ∉ places) : AgreeOn places s (s.erase l) := fun k hk => by
  rw [getElem?_erase, if_neg fun heq : l = k => hl (heq ▸ hk)]

/-- A file stands at the place. -/
def HasFileAt (s : Store) (l : Location) : Prop := ∃ f, s.node? l = some (.file f)

theorem HasFileAt.put (h : s.HasFileAt l) (hk : s.FileOrNone k) :
    (s.put k (.file f)).HasFileAt l := by
  obtain ⟨g, hg⟩ := h
  exact (keeps_put hk).file hg

theorem HasFileAt.erase (h : s.HasFileAt l) (hk : k ≠ []) (hne : l ≠ k) :
    (s.erase k).HasFileAt l := by
  obtain ⟨g, hg⟩ := h
  exact ⟨g, by rw [node?_erase s hk, if_neg hne, hg]⟩

theorem HasFileAt.unlockAt (h : s.HasFileAt l) : (s.unlockAt k).HasFileAt l := by
  unfold Store.unlockAt
  split
  · next f hk => exact h.put (fileOrNone_of_file hk)
  · exact h

/-- What became of the store `t` is `b`. It has the result of `a` and holds at the places what is
there in `a`, and nothing else has changed. What was a file at one of `files` still is one. -/
structure Local (places files : Set Location) (t : Store) {α : Type} (a b : Store × α) : Prop where
  result : b.2 = a.2
  agree : AgreeOn places a.1 b.1
  frame : AgreeOn placesᶜ t b.1
  file : ∀ l ∈ files, t.HasFileAt l → b.1.HasFileAt l

namespace Local

variable {files : Set Location} {α : Type} {a b : Store × α}

/-- Nothing changes. -/
theorem same (h : AgreeOn places s t) (x : α) : Local places files t (s, x) (t, x) :=
  ⟨rfl, h, .refl _ t, fun _ _ => id⟩

/-- A file is put at one of the places in front. -/
theorem of_put (hk : k ∈ places) (hfile : t.FileOrNone k)
    (h : Local places files (t.put k (.file f)) a b) : Local places files t a b :=
  ⟨h.result, h.agree, (agreeOn_put (not_not.2 hk)).trans h.frame,
    fun l hl htarget => h.file l hl (htarget.put hfile)⟩

/-- The lock on a file at one of the places is released behind. -/
theorem unlockAt (hk : k ∈ places) (h : Local places files t a b) :
    Local places files t (a.1.unlockAt k, a.2) (b.1.unlockAt k, b.2) := by
  refine ⟨h.result, ?_, ?_, fun l hl htarget => (h.file l hl htarget).unlockAt⟩
  · simp only [Store.unlockAt, h.agree.node?_eq hk]
    split
    · exact h.agree.put _ _
    · exact h.agree
  · refine h.frame.trans ?_
    simp only [Store.unlockAt]
    split
    · exact agreeOn_put (not_not.2 hk)
    · exact .refl _ _

end Local

end Store

namespace Replacement

open Store

/-- The places of the files of a replacement. -/
def Spot.places (p : Spot) (process : Nat) : Set Location :=
  {k | k = p.target ∨ k = p.lock ∨ k = p.temporary process}

variable {r : Replacement} {s₀ s t : Store} {p : Spot} {process : Nat} {f g : File} {k : Location}

theorem Spot.lock_mem_places : p.lock ∈ p.places process := .inr (.inl rfl)

theorem Spot.temporary_mem_places : p.temporary process ∈ p.places process := .inr (.inr rfl)

theorem Concerns.mono (h : Concerns r s p) (hs : KeepsWays s t) : Concerns r t p :=
  ⟨h.target, h.isName, h.reaches.mono hs⟩

/-- Where no link stands, a replacement finds its places. -/
theorem Concerns.sites (h : Concerns r s p) (hlinks : s.LinkFree)
    (ha : admits p.folder (lockName p.name) = .ok ()) :
    Sites r s p.lock ((admits p.folder (temporaryName r.process p.name)).map
      fun _ => p.temporary r.process) where
  locate_lock := by rw [h.locate?_lock (.refl s) (hlinks _), ha, Except.map]
  locate_temporary follow hs := h.locate?_temporary follow hs.keepsWays (hs.linkFree hlinks _)
  temporary_ne_link _ := hlinks _
  target_ne_link _ := hlinks _

/-- The temporary file is removed from both stores. -/
theorem erased_local {result : Except StoreError Unit}
    (hagree : AgreeOn (p.places r.process) s t) :
    Local (p.places r.process) {p.target} t (s.erase (p.temporary r.process), result)
      (t.erase (p.temporary r.process), result) :=
  ⟨rfl, hagree.erase _, agreeOn_erase (not_not.2 Spot.temporary_mem_places),
    fun _ hl htarget => htarget.erase Spot.temporary_ne_nil (hl ▸ Spot.temporary_ne_target.symm)⟩

/-- What stands in the place of the temporary file is cleared away in both stores. -/
theorem cleared_local {result : Except StoreError Unit}
    (hagree : AgreeOn (p.places r.process) s t) :
    let temporary := (admits p.folder (temporaryName r.process p.name)).map
      fun _ => p.temporary r.process
    Local (p.places r.process) {p.target} t (cleared temporary s, result)
      (cleared temporary t, result) := by
  intro temporary
  cases ha : admits p.folder (temporaryName r.process p.name) with
  | error fault => simp only [temporary, ha, cleared, Except.map]; exact .same hagree _
  | ok _ =>
    simp only [temporary, ha, cleared, Except.map, hagree.node?_eq Spot.temporary_mem_places]
    split
    · exact .same hagree _
    · exact erased_local hagree

section

variable (h : Concerns r s₀ p) (hlinks : s₀.LinkFree) (hs : SameWays s₀ s) (ht : SameWays s₀ t)
  (hagree : AgreeOn (p.places r.process) s t)

include h hlinks hs ht hagree

/-- A temporary file takes the place of the target in both stores, or in none of them. -/
theorem moved_local (ha : admits p.folder (temporaryName r.process p.name) = .ok ())
    (hm : s.FileOrNone (p.temporary r.process)) :
    Local (p.places r.process) {p.target} t (r.moved s (p.temporary r.process) g)
      (r.moved t (p.temporary r.process) g) := by
  have hmem : p.temporary r.process ∈ p.places r.process := Spot.temporary_mem_places
  have hm' : t.FileOrNone (p.temporary r.process) := by rwa [FileOrNone, hagree.node?_eq hmem]
  have hs' := hs.trans (sameWays_put (f := r.filled g) hm)
  have ht' := ht.trans (sameWays_put (f := r.filled g) hm')
  have hhitch : ∀ stages, r.hitch? (t.put (p.temporary r.process) (.file (r.filled g))) stages =
      r.hitch? (s.put (p.temporary r.process) (.file (r.filled g))) stages :=
    hitch?_congr (ht'.refuses.trans hs'.refuses.symm)
  simp only [moved, settled, hhitch, erase_put_self]
  split
  · exact erased_local hagree
  simp only [rename, h.locate?_temporary false hs'.keepsWays (hs'.linkFree hlinks _),
    h.locate?_temporary false ht'.keepsWays (ht'.linkFree hlinks _), ha, Except.map,
    h.locate?_target hs'.keepsWays, h.locate?_target ht'.keepsWays]
  cases admits p.folder p.name with
  | error fault => exact erased_local hagree
  | ok _ =>
    simp only [node?_put_self Spot.temporary_ne_nil, if_neg Spot.target_ne_nil,
      if_neg Spot.temporary_ne_target.symm, erase_put_self,
      node?_put_of_ne Spot.temporary_ne_nil Spot.temporary_ne_target.symm,
      hagree.node?_eq (.inl rfl : p.target ∈ p.places r.process)]
    by_cases hdirectory : s.node? p.target = some .directory
    · simp only [if_pos hdirectory]
      exact erased_local hagree
    · simp only [if_neg hdirectory]
      exact ⟨rfl, (hagree.erase _).put _ _,
        (agreeOn_erase (not_not.2 hmem)).trans (agreeOn_put (not_not.2 (.inl rfl))),
        fun _ hl _ => ⟨r.filled g, by
          rw [Set.mem_singleton_iff.1 hl, node?_put_self Spot.target_ne_nil]⟩⟩

theorem exchanged_local :
    let temporary := (admits p.folder (temporaryName r.process p.name)).map
      fun _ => p.temporary r.process
    Local (p.places r.process) {p.target} t (r.exchanged temporary s)
      (r.exchanged temporary t) := by
  intro temporary
  have hnode : t.node? (p.temporary r.process) = s.node? (p.temporary r.process) :=
    hagree.node?_eq Spot.temporary_mem_places
  unfold exchanged
  rw [refusal?_congr (hs.symm.trans ht).refuses]
  split
  · exact cleared_local hagree
  cases ha : admits p.folder (temporaryName r.process p.name) with
  | error fault => simp only [temporary, ha, Except.map]; exact .same hagree _
  | ok _ =>
    simp only [temporary, ha, Except.map, hnode]
    cases hm : s.node? (p.temporary r.process) with
    | none => exact moved_local h hlinks hs ht hagree ha (fileOrNone_of_none hm)
    | some n =>
      cases n with
      | file g => exact moved_local h hlinks hs ht hagree ha (fileOrNone_of_file hm)
      | directory => exact .same hagree _
      | link target => exact .same hagree _

theorem guarded_local (hk : s.FileOrNone p.lock) :
    let temporary := (admits p.folder (temporaryName r.process p.name)).map
      fun _ => p.temporary r.process
    Local (p.places r.process) {p.target} t (r.guarded temporary s p.lock f)
      (r.guarded temporary t p.lock f) := by
  intro temporary
  have hk' : t.FileOrNone p.lock := by rwa [FileOrNone, hagree.node?_eq Spot.lock_mem_places]
  rw [guarded, guarded, refusal?_congr (hs.symm.trans ht).refuses]
  split
  · exact (Local.same (hagree.put p.lock (.file f)) _).of_put Spot.lock_mem_places hk'
  · have hexchanged := exchanged_local h hlinks (hs.trans (sameWays_put hk))
      (ht.trans (sameWays_put hk')) (hagree.put p.lock (.file { f with locked := true }))
    exact (hexchanged.unlockAt Spot.lock_mem_places).of_put Spot.lock_mem_places hk'

end

/-- A replacement does the same in two stores with the same ways that hold the same at its
places. -/
theorem finish_local (h : Concerns r s p) (hlinks : s.LinkFree) (ht : SameWays s t)
    (hagree : AgreeOn (p.places r.process) s t) :
    Local (p.places r.process) {p.target} t (r.finish s .openLock) (r.finish t .openLock) := by
  cases ha : admits p.folder (lockName p.name) with
  | error fault =>
    have hlock : ∀ {u}, SameWays s u → u.locate? true r.lockPath = .error fault := fun hu => by
      rw [h.locate?_lock hu.keepsWays (hu.linkFree hlinks _), ha, Except.map]
    rw [finish_openLock_of_error (hlock (.refl s)), finish_openLock_of_error (hlock ht),
      refusal?_congr ht.refuses]
    exact .same hagree _
  | ok _ =>
    have hsites' := (h.mono ht.keepsWays).sites (ht.linkFree hlinks) ha
    rw [finish_openLock (h.sites hlinks ha), finish_openLock hsites', refusal?_congr ht.refuses,
      hagree.node?_eq Spot.lock_mem_places]
    split
    · exact .same hagree _
    cases hk : s.node? p.lock with
    | none => exact guarded_local h hlinks (.refl s) ht hagree (fileOrNone_of_none hk)
    | some n =>
      cases n with
      | file f => exact guarded_local h hlinks (.refl s) ht hagree (fileOrNone_of_file hk)
      | directory => exact .same hagree _
      | link target => exact .same hagree _

end Replacement

namespace Store

variable {s t : Store} {options : EditOptions} {process : Nat} {path : Path} {edits : List Edit}
  {k l : Location} {f : File}

/-- The places at which a process looks that writes the file to which a path leads: those of the
file, of its lock file and of its temporary file. -/
def writerPlaces (s : Store) (process : Nat) (path : Path) : Set Location :=
  {k | ∃ l f, s.find? path.text = .ok (l, .file f) ∧
    (k = l ∨ k = lockOf l ∨ k = temporaryOf process l)}

/-- The place of the file to which a path leads, if it leads to one. -/
def fileOf (s : Store) (path : Path) : Set Location :=
  {l | ∃ f, s.find? path.text = .ok (l, .file f)}

/-- Writing to a file does the same in two stores with the same ways that hold the same at the
places of the writer. -/
theorem write_local (bytes : ByteArray) (hs : s.IsTree) (hlinks : s.LinkFree) (ht : SameWays s t)
    (hfind : s.find? path.text = .ok (l, .file f))
    (hagree : AgreeOn (s.writerPlaces process path) s t) :
    Local (s.writerPlaces process path) (s.fileOf path) t (s.write process path bytes)
      (t.write process path bytes) := by
  obtain ⟨hlocate, hl⟩ := find?_eq_ok_iff.1 hfind
  have hfind' : t.find? path.text = .ok (l, .file f) :=
    find?_eq_ok_iff.2 ⟨ht.locate?_eq_ok_iff.2 hlocate,
      (hagree.node?_eq ⟨l, f, hfind, .inl rfl⟩).trans hl⟩
  obtain ⟨dir, name, rfl⟩ : ∃ (dir : Location) (name : String), l = dir ++ [name] :=
    (List.eq_nil_or_concat' l).resolve_left (ne_nil_of_file hl)
  have hplaces : s.writerPlaces process path =
      Replacement.Spot.places ⟨folderOf dir, dir, name⟩ process := by
    ext k
    simp [writerPlaces, hfind, Replacement.Spot.places, Replacement.Spot.target,
      Replacement.Spot.lock, Replacement.Spot.temporary]
  have hfiles : s.fileOf path = {Replacement.Spot.target ⟨folderOf dir, dir, name⟩} := by
    ext k
    simp [fileOf, hfind, Replacement.Spot.target, eq_comm]
  rw [hplaces] at hagree
  rw [write_eq_finish bytes hfind, write_eq_finish bytes hfind', hplaces, hfiles]
  have hconcerns := hs.concerns bytes (some f.mode) process hl
  have hfinish := Replacement.finish_local hconcerns hlinks ht hagree
  exact hfinish

/-- An edit of a file does the same in two stores with the same ways, if the path leads to the same
in both and they hold the same at the places of a writer. -/
theorem editFile_local (hs : s.IsTree) (hlinks : s.LinkFree) (ht : SameWays s t)
    (hfind : t.find? path.text = s.find? path.text)
    (hagree : AgreeOn (s.writerPlaces options.process path) s t) :
    Local (s.writerPlaces options.process path) (s.fileOf path) t (s.editFile options path edits)
      (t.editFile options path edits) := by
  have hread := readText_congr hfind
  obtain ⟨e, h⟩ | ⟨old, new, hold, hnew⟩ := refuses_or_prepared s path edits
  · rw [editFile_of_refuses h, editFile_of_refuses (h.congr hread)]
    exact .same hagree _
  have hold' : t.readText path = .ok old := hread.trans hold
  by_cases hwritten : (FileOutcome.ofTexts path options.dryRun old new).written = true
  · rw [editFile_of_written hold hnew hwritten, editFile_of_written hold' hnew hwritten]
    obtain ⟨l, f, hfound, -⟩ := readText_eq_ok_iff.1 hold
    have hwrite := write_local new.toUTF8 hs hlinks ht hfound hagree
    generalize s.write options.process path new.toUTF8 = a at hwrite ⊢
    generalize t.write options.process path new.toUTF8 = b at hwrite ⊢
    obtain ⟨s', result⟩ := a
    obtain ⟨t', result'⟩ := b
    obtain ⟨hresult, hagree', hframe, hfile⟩ := hwrite
    obtain rfl : result' = result := hresult
    cases result' with
    | error e => exact ⟨rfl, hagree', hframe, hfile⟩
    | ok _ => exact ⟨rfl, hagree', hframe, hfile⟩
  · have hnot := Bool.eq_false_iff.2 hwritten
    rw [editFile_of_not_written hold hnew hnot, editFile_of_not_written hold' hnew hnot]
    exact .same hagree _

end Store

end BlockEdit
