import BlockEdit.Proofs.Store.SameWays
import BlockEdit.Store.Write
import Mathlib.Logic.Function.Basic

/-!
# Files with numbers

A `Store` says which file stands at a place. Somebody who has a file open keeps it, whatever happens
to its name meanwhile: it may be moved to another name, or lose its name. So a `Disk` numbers the
files, and its names stand for numbers. What is open is a number; what has a path is found by name.

* `Disk.store` is the store that is seen by names;
* `openFile`, `rename`, `remove` work by names, and are seen as what the store does
  (`openFile_eq_ok`, `store_rename`, `store_remove`);
* `change` works on an open file, and is seen at the place where the file stands, if at any
  (`store_change`);
* `SameOff m k k'`: nothing but the place `m` has changed.
-/

namespace BlockEdit

/-- What a name stands for. -/
inductive Entry where
  | file (number : Nat)
  | directory
  | link (target : String)
  deriving DecidableEq

/-- What stands at a name for it, when `files` are the files with the numbers. -/
def Entry.node (files : Nat → File) : Entry → FileNode
  | file n => .file (files n)
  | directory => .directory
  | link target => .link target

/-- Files with numbers, and the names that stand for them. Two names never stand for one file. -/
structure Disk where
  entries : Std.ExtTreeMap Location Entry
  files : Nat → File
  /-- The number of the next new file. -/
  next : Nat
  workingDirectory : Location
  number_lt : ∀ {l : Location} {n : Nat}, entries[l]? = some (.file n) → n < next
  number_inj : ∀ {l l' : Location} {n : Nat}, entries[l]? = some (.file n) →
    entries[l']? = some (.file n) → l = l'

namespace Disk

/-- The store that is seen by names. -/
def store (k : Disk) : Store :=
  ⟨k.entries.map fun _ e => e.node k.files, k.workingDirectory, fun _ => none⟩

/-- The disk on which there is no name, seen from the directory `here`. -/
def empty (here : Location) : Disk := ⟨{}, fun _ => .empty, 0, here, by simp, by simp⟩

/-- What the name at a place stands for. -/
def entryAt? (k : Disk) (l : Location) : Option Entry :=
  if l = [] then some .directory else k.entries[l]?

/-- The disk with a change made to an open file. -/
def change (k : Disk) (n : Nat) (f : File → File) : Disk :=
  { k with files := Function.update k.files n (f (k.files n)) }

/-- The disk with a new file at a place. -/
def create (k : Disk) (l : Location) : Disk where
  entries := k.entries.insert l (.file k.next)
  files := Function.update k.files k.next .empty
  next := k.next + 1
  workingDirectory := k.workingDirectory
  number_lt {l' n} h := by
    simp only [Std.ExtTreeMap.getElem?_insert, Std.compare_eq_iff_eq] at h
    split at h
    · cases h; exact Nat.lt_succ_self _
    · exact Nat.lt_succ_of_lt (k.number_lt h)
  number_inj {l₁ l₂ n} h₁ h₂ := by
    simp only [Std.ExtTreeMap.getElem?_insert, Std.compare_eq_iff_eq] at h₁ h₂
    split at h₁ <;> split at h₂
    · simp_all
    · cases h₁; exact absurd (k.number_lt h₂) (Nat.lt_irrefl _)
    · cases h₂; exact absurd (k.number_lt h₁) (Nat.lt_irrefl _)
    · exact k.number_inj h₁ h₂

/-- The disk with a link at a place. -/
def link (k : Disk) (l : Location) (target : String) : Disk where
  entries := k.entries.insert l (.link target)
  files := k.files
  next := k.next
  workingDirectory := k.workingDirectory
  number_lt {l' n} h := by
    simp only [Std.ExtTreeMap.getElem?_insert] at h
    split at h
    · cases h
    · exact k.number_lt h
  number_inj {l₁ l₂ n} h₁ h₂ := by
    simp only [Std.ExtTreeMap.getElem?_insert] at h₁ h₂
    split at h₁ <;> split at h₂
    · cases h₁
    · cases h₁
    · cases h₂
    · exact k.number_inj h₁ h₂

/-- The disk without the name at a place. -/
def unlink (k : Disk) (l : Location) : Disk where
  entries := k.entries.erase l
  files := k.files
  next := k.next
  workingDirectory := k.workingDirectory
  number_lt {l' n} h := by
    simp only [Std.ExtTreeMap.getElem?_erase] at h
    split at h
    · cases h
    · exact k.number_lt h
  number_inj {l₁ l₂ n} h₁ h₂ := by
    simp only [Std.ExtTreeMap.getElem?_erase] at h₁ h₂
    split at h₁ <;> split at h₂
    · cases h₁
    · cases h₁
    · cases h₂
    · exact k.number_inj h₁ h₂

theorem ne_nil_of_file {k : Disk} {l : Location} {n : Nat} (h : k.entryAt? l = some (.file n)) :
    l ≠ [] := by
  rintro rfl
  cases h

theorem entryAt?_of_ne_nil {k : Disk} {l : Location} (hl : l ≠ []) : k.entryAt? l = k.entries[l]? :=
  if_neg hl

theorem getElem?_of_file {k : Disk} {l : Location} {n : Nat} (h : k.entryAt? l = some (.file n)) :
    k.entries[l]? = some (.file n) := by
  rwa [entryAt?_of_ne_nil (ne_nil_of_file h)] at h

/-- The entries with the one at a place moved to another place. -/
def moved (k : Disk) (old new : Location) : Std.ExtTreeMap Location Entry :=
  match k.entryAt? old with
  | some e => (k.entries.erase old).insert new e
  | none => k.entries

theorem moved_of_some {k : Disk} {old : Location} {e : Entry} (h : k.entryAt? old = some e)
    (new l : Location) :
    (k.moved old new)[l]? =
      if new = l then some e else if old = l then none else k.entries[l]? := by
  simp only [moved, h, Std.ExtTreeMap.getElem?_insert, Std.ExtTreeMap.getElem?_erase,
    Std.compare_eq_iff_eq]

/-- What stands somewhere after a move has been moved there, or it stood there before. -/
theorem of_moved {k : Disk} {old new l : Location} {e : Entry}
    (h : (k.moved old new)[l]? = some e) :
    l = new ∧ k.entryAt? old = some e ∨
      k.entries[l]? = some e ∧ (l = old → k.entryAt? old = none) := by
  cases hold : k.entryAt? old with
  | none =>
    rw [moved, hold] at h
    exact .inr ⟨h, fun _ => rfl⟩
  | some e' =>
    rw [moved_of_some hold] at h
    split at h
    · next heq => exact .inl ⟨heq.symm, h⟩
    · split at h
      · cases h
      · next hne => exact .inr ⟨h, fun heq => absurd heq.symm hne⟩

/-- The disk with the name at one place moved to another place. -/
def move (k : Disk) (old new : Location) : Disk where
  entries := k.moved old new
  files := k.files
  next := k.next
  workingDirectory := k.workingDirectory
  number_lt {l n} h := by
    rcases of_moved h with ⟨-, h⟩ | ⟨h, -⟩
    · exact k.number_lt (getElem?_of_file h)
    · exact k.number_lt h
  number_inj {l₁ l₂ n} h₁ h₂ := by
    rcases of_moved h₁ with ⟨hl₁, e₁⟩ | ⟨e₁, ho₁⟩ <;> rcases of_moved h₂ with ⟨hl₂, e₂⟩ | ⟨e₂, ho₂⟩
    · rw [hl₁, hl₂]
    · have := ho₂ (k.number_inj e₂ (getElem?_of_file e₁))
      rw [e₁] at this
      cases this
    · have := ho₁ (k.number_inj e₁ (getElem?_of_file e₂))
      rw [e₂] at this
      cases this
    · exact k.number_inj e₁ e₂

/-- The disk in which the file that a path leads to is open, and its number. A file that is missing
is made. -/
def openFile (k : Disk) (path : String) : Except Fault (Disk × Nat) :=
  match k.store.locate? true path with
  | .error fault => .error fault
  | .ok l =>
    match k.entryAt? l with
    | some (.file n) => .ok (k, n)
    | some _ => .error .isDirectory
    | none => .ok (k.create l, k.next)

/-- The disk with the name at one path moved to another one, in the place of what stands there. -/
def rename (k : Disk) (source target : String) : Except Fault Disk :=
  match k.store.locate? false source with
  | .error fault => .error fault
  | .ok old =>
    match k.store.locate? false target with
    | .error fault => .error fault
    | .ok new =>
      match k.entryAt? old with
      | none => .error .notFound
      | some _ =>
        if new = [] then .error .busy
        else if k.entryAt? new = some .directory then .error .isDirectory
        else if new = old then .ok k
        else .ok (k.move old new)

/-- The disk without the name of a path. -/
def remove (k : Disk) (path : String) : Disk :=
  match k.store.locate? false path with
  | .error _ => k
  | .ok l => if k.entryAt? l = some .directory then k else k.unlink l

variable {k k' k'' : Disk} {l l' m old new : Location} {n : Nat} {e : Entry} {f : File → File}
  {path source target : String}

/-! ### What is seen by names -/

theorem getElem?_store (k : Disk) (l : Location) :
    k.store.nodes[l]? = k.entries[l]?.map (·.node k.files) := by
  simp [store]

theorem node?_store (k : Disk) (l : Location) :
    k.store.node? l = (k.entryAt? l).map (·.node k.files) := by
  by_cases hl : l = []
  · subst hl; rfl
  · rw [Store.node?_of_ne_nil hl, getElem?_store, entryAt?, if_neg hl]

theorem node?_eq_directory_iff :
    k.store.node? l = some .directory ↔ k.entryAt? l = some .directory := by
  rw [node?_store]
  cases k.entryAt? l with
  | none => simp
  | some e => cases e <;> simp [Entry.node]

theorem node?_of_file (h : k.entryAt? l = some (.file n)) :
    k.store.node? l = some (.file (k.files n)) := by
  rw [node?_store, h]
  rfl

theorem exists_entryAt_of_node? {f : File} (h : k.store.node? l = some (.file f)) :
    ∃ n, k.entryAt? l = some (.file n) ∧ k.files n = f := by
  rw [node?_store] at h
  cases he : k.entryAt? l with
  | none => simp [he] at h
  | some e =>
    cases e with
    | file n => exact ⟨n, rfl, by simpa [he, Entry.node] using h⟩
    | directory => simp [he, Entry.node] at h
    | link target => simp [he, Entry.node] at h

/-! ### Changes that are seen -/

/-- A change made to an open file is seen where the file stands. -/
theorem store_change (h : k.entryAt? l = some (.file n)) (f : File → File) :
    (k.change n f).store = k.store.put l (.file (f (k.files n))) := by
  have hl := ne_nil_of_file h
  rw [entryAt?_of_ne_nil hl] at h
  refine Store.ext_nodes rfl rfl fun l' => ?_
  rw [Store.getElem?_put, getElem?_store, getElem?_store]
  by_cases heq : l = l'
  · subst heq
    simp [change, h, Entry.node]
  · rw [if_neg heq]
    cases he : k.entries[l']? with
    | none => simp [change, he]
    | some e =>
      cases e with
      | file n' =>
        have hne : n' ≠ n := fun hn => heq (k.number_inj h (hn ▸ he))
        simp [change, he, Entry.node, Function.update_of_ne hne]
      | directory => simp [change, he, Entry.node]
      | link target => simp [change, he, Entry.node]

theorem store_empty (here : Location) : (empty here).store = .root here := by
  refine Store.ext_nodes rfl rfl fun l => ?_
  rw [getElem?_store]
  simp [empty, Store.root]

theorem store_create (k : Disk) (l : Location) :
    (k.create l).store = k.store.put l (.file .empty) := by
  refine Store.ext_nodes rfl rfl fun l' => ?_
  rw [Store.getElem?_put, getElem?_store, getElem?_store]
  simp only [create, Std.ExtTreeMap.getElem?_insert, Std.compare_eq_iff_eq]
  split
  · simp [Entry.node]
  · cases he : k.entries[l']? with
    | none => rfl
    | some e =>
      cases e with
      | file n =>
        have hne : n ≠ k.next := (k.number_lt he).ne
        simp [Entry.node, Function.update_of_ne hne]
      | directory => rfl
      | link target => rfl

theorem store_unlink (k : Disk) (l : Location) : (k.unlink l).store = k.store.erase l := by
  refine Store.ext_nodes rfl rfl fun l' => ?_
  rw [Store.getElem?_erase, getElem?_store, getElem?_store]
  simp only [unlink, Std.ExtTreeMap.getElem?_erase, Std.compare_eq_iff_eq]
  split <;> rfl

theorem store_move (hold : k.entryAt? old = some e) (new : Location) :
    (k.move old new).store = (k.store.erase old).put new (e.node k.files) := by
  refine Store.ext_nodes rfl rfl fun l' => ?_
  rw [Store.getElem?_put, Store.getElem?_erase, getElem?_store, getElem?_store]
  simp only [move, moved_of_some hold]
  split
  · rfl
  · split <;> rfl

/-! ### Names and what the store does with them -/

theorem entryAt?_create_self (hm : m ≠ []) : (k.create m).entryAt? m = some (.file k.next) := by
  simp [entryAt?_of_ne_nil hm, create]

/-- A file is opened where its path leads. It was there, or it is made. -/
theorem openFile_eq_ok (h : k.openFile path = .ok (k', n)) :
    ∃ l, k.store.locate? true path = .ok l ∧ k'.entryAt? l = some (.file n) ∧
      k.store.openFile path = .ok (k'.store, l, k'.files n) ∧
      (k' = k ∨ k.entryAt? l = none ∧ k' = k.create l) := by
  unfold openFile at h
  rw [Store.openFile]
  cases hl : k.store.locate? true path with
  | error fault => simp [hl] at h
  | ok l =>
    simp only [hl, node?_store] at h ⊢
    cases he : k.entryAt? l with
    | none =>
      rw [he] at h
      cases h
      have hne : l ≠ [] := by rintro rfl; cases he
      have hfile : (k.create l).files k.next = .empty := Function.update_self ..
      refine ⟨l, rfl, entryAt?_create_self hne, ?_, .inr ⟨he, rfl⟩⟩
      rw [store_create, hfile]
      rfl
    | some e =>
      cases e with
      | file n' =>
        rw [he] at h
        cases h
        exact ⟨l, rfl, he, rfl, .inl rfl⟩
      | directory => simp [he] at h
      | link target => simp [he] at h

theorem openFile_eq_error {fault : Fault} (h : k.openFile path = .error fault) :
    k.store.openFile path = .error fault := by
  unfold openFile at h
  rw [Store.openFile]
  cases hl : k.store.locate? true path with
  | error fault' =>
    rw [hl] at h
    cases h
    rfl
  | ok l =>
    simp only [hl, node?_store] at h ⊢
    cases he : k.entryAt? l with
    | none => simp [he] at h
    | some e =>
      cases e with
      | file n => simp [he] at h
      | directory =>
        rw [he] at h
        cases h
        rfl
      | link target =>
        rw [he] at h
        cases h
        rfl

theorem store_remove (k : Disk) (path : String) : (k.remove path).store = k.store.remove path := by
  rw [remove, Store.remove]
  cases k.store.locate? false path with
  | error fault => rfl
  | ok l =>
    simp only [node?_eq_directory_iff]
    split
    · rfl
    · exact store_unlink k l

theorem store_rename (k : Disk) (source target : String) :
    (k.rename source target).map store = k.store.rename source target := by
  rw [rename, Store.rename]
  cases k.store.locate? false source with
  | error fault => rfl
  | ok old =>
    cases k.store.locate? false target with
    | error fault => rfl
    | ok new =>
      simp only [node?_eq_directory_iff]
      rw [node?_store]
      cases hold : k.entryAt? old with
      | none => rfl
      | some e =>
        simp only [Option.map_some]
        split
        · rfl
        split
        · rfl
        split
        · rfl
        · exact congrArg Except.ok (store_move hold new)

theorem sameWays_openFile (h : k.openFile path = .ok (k', n)) :
    Store.SameWays k.store k'.store := by
  obtain ⟨l, -, -, hstore, -⟩ := openFile_eq_ok h
  exact (Store.alters_openFile hstore).2.1.sameWays

theorem sameWays_change (h : k.entryAt? l = some (.file n)) (f : File → File) :
    Store.SameWays k.store (k.change n f).store := by
  rw [store_change h]
  exact Store.sameWays_put (Store.fileOrNone_of_file (node?_of_file h))

/-- What is moved stood where the first path leads, and stands where the other one leads. -/
theorem rename_eq_ok (h : k.rename source target = .ok k') :
    ∃ old new e, k.store.locate? false source = .ok old ∧ k.store.locate? false target = .ok new ∧
      k.entryAt? old = some e ∧ (new = old ∧ k' = k ∨ k' = k.move old new) := by
  unfold rename at h
  cases hold : k.store.locate? false source with
  | error fault => simp [hold] at h
  | ok old =>
    cases hnew : k.store.locate? false target with
    | error fault => simp [hold, hnew] at h
    | ok new =>
      cases he : k.entryAt? old with
      | none => simp [hold, hnew, he] at h
      | some e =>
        simp only [hold, hnew, he] at h
        refine ⟨old, new, e, rfl, rfl, he, ?_⟩
        split at h
        · cases h
        split at h
        · cases h
        split at h
        · next heq => cases h; exact .inl ⟨heq, rfl⟩
        · cases h; exact .inr rfl

/-- What is removed is the name where the path leads, if anything. -/
theorem remove_cases (k : Disk) (path : String) :
    k.remove path = k ∨ ∃ l, k.store.locate? false path = .ok l ∧
      k.store.node? l ≠ some .directory ∧ k.remove path = k.unlink l := by
  unfold remove
  cases k.store.locate? false path with
  | error fault => exact .inl rfl
  | ok l =>
    by_cases h : k.entryAt? l = some .directory
    · exact .inl (if_pos h)
    · exact .inr ⟨l, rfl, fun hnode => h (node?_eq_directory_iff.1 hnode), if_neg h⟩

/-! ### What else has not changed -/

/-- Nothing but the name at one place has changed, and no file that another name stands for. -/
structure SameOff (m : Location) (k k' : Disk) : Prop where
  entry : ∀ {l}, l ≠ m → k'.entryAt? l = k.entryAt? l
  file : ∀ {l n}, l ≠ m → k.entryAt? l = some (.file n) → k'.files n = k.files n

theorem SameOff.refl (m : Location) (k : Disk) : SameOff m k k := ⟨fun _ => rfl, fun _ _ => rfl⟩

theorem SameOff.trans (h : SameOff m k k') (h' : SameOff m k' k'') : SameOff m k k'' where
  entry hl := (h'.entry hl).trans (h.entry hl)
  file hl he := (h'.file hl ((h.entry hl).trans he)).trans (h.file hl he)

theorem SameOff.file_entry (h : SameOff m k k') (hl : l ≠ m) (he : k.entryAt? l = some (.file n)) :
    k'.entryAt? l = some (.file n) ∧ k'.files n = k.files n :=
  ⟨(h.entry hl).trans he, h.file hl he⟩

theorem sameOff_change (h : k.entryAt? m = some (.file n)) (f : File → File) :
    SameOff m k (k.change n f) where
  entry _ := rfl
  file {l n'} hl he := by
    have hne : n' ≠ n := fun heq =>
      hl (k.number_inj (getElem?_of_file (heq ▸ he)) (getElem?_of_file h))
    exact Function.update_of_ne hne _ _

theorem sameOff_create (k : Disk) (m : Location) : SameOff m k (k.create m) where
  entry {l} hl := by
    by_cases hnil : l = []
    · subst hnil; rfl
    · simp [entryAt?_of_ne_nil hnil, create, Std.ExtTreeMap.getElem?_insert, Ne.symm hl]
  file {l n} hl he := Function.update_of_ne (k.number_lt (getElem?_of_file he)).ne _ _

theorem sameOff_unlink (k : Disk) (m : Location) : SameOff m k (k.unlink m) where
  entry {l} hl := by
    by_cases hnil : l = []
    · subst hnil; rfl
    · simp [entryAt?_of_ne_nil hnil, unlink, Std.ExtTreeMap.getElem?_erase, Ne.symm hl]
  file _ _ := rfl

theorem entryAt?_move (hold : k.entryAt? old = some e) (hl : l ≠ []) :
    (k.move old new).entryAt? l =
      if new = l then some e else if old = l then none else k.entryAt? l := by
  rw [entryAt?_of_ne_nil hl, entryAt?_of_ne_nil hl]
  exact moved_of_some hold new l

end Disk

end BlockEdit
