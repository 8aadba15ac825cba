import BlockEdit.Proofs.Store.Outcome
import BlockEdit.Proofs.Store.Write
import Mathlib.Data.Set.Basic

/-!
# What a write does to a tree

`Store.write` may be called on any path, whatever stands there. `write_effect` says what becomes of
the whole tree. When it succeeds, the path is read as the new bytes, and the file to which it led
before has been replaced, with its permissions. What may have been added are directories on the way
to the path, and an empty file to hold the lock; all else is as before (`Spares`). When it fails,
nothing was replaced either.

The directories are made first (`makeParent_spec`). Where new ones were made nothing stood behind
the path, so that the file to replace, its lock file and its temporary file are the same ones before
and after. The replacement then begins in a store that is clear, and ends as `Replacement.Comes`
says.
-/

namespace BlockEdit

/-- The permissions of a file. -/
def FileNode.mode? : FileNode → Option Nat
  | .file f => some f.mode
  | _ => none

namespace Store

open BlockEdit.Path

variable {s s' s₁ : Store} {process : Nat} {path parent : Path} {bytes : ByteArray}
  {r : Replacement} {k l : Location} {n : FileNode} {folder : List Char} {name : String}

/-! ### What is written to -/

/-- Neither the path nor its lock file is a link that leads to nothing, and nothing stands in the
place of its temporary file. -/
structure Writable (s : Store) (process : Nat) (path : Path) (bytes : ByteArray) : Prop where
  target : ¬s.Dangles path.text
  lock : ∀ r, s.replacement process path bytes = .ok r → ¬s.Dangles r.lockPath
  temporary : ∀ r, s.replacement process path bytes = .ok r →
    ∀ m, s.locate? false r.temporaryPath = .ok m → s.node? m = none

theorem replacement_eq_ok (h : s.replacement process path bytes = .ok r) :
    (∃ l n, s.find? path.text = .ok (l, n) ∧ r = ⟨pathOf l, bytes, n.mode?, process⟩) ∨
      s.find? path.text = .error .notFound ∧ r = ⟨path.text, bytes, none, process⟩ := by
  unfold replacement at h
  split at h
  · next l f hfind => exact .inl ⟨l, _, hfind, (Except.ok.inj h).symm⟩
  · next l n hfile hfind =>
    cases n with
    | file f => exact (hfile f rfl).elim
    | directory => exact .inl ⟨l, _, hfind, (Except.ok.inj h).symm⟩
    | link target => exact .inl ⟨l, _, hfind, (Except.ok.inj h).symm⟩
  · next hfind => exact .inr ⟨hfind, (Except.ok.inj h).symm⟩
  · cases h

/-- The path of a place in a tree leads to that place. -/
theorem IsTree.eq_of_locate?_pathOf (hs : s.IsTree) (hl : s.node? l = some n)
    (h : s.locate? false (pathOf l) = .ok k) : k = l := by
  obtain rfl | ⟨dir, name, rfl⟩ := List.eq_nil_or_concat' l
  · obtain ⟨-, -, -, hwalk⟩ := locate?_eq_ok_iff.1 h
    have hnames : names (pathOf []).toList = [] := by decide
    rw [hnames, walk_nil] at hwalk
    exact (Except.ok.inj hwalk).symm
  · have hdir := hs.parent hl (by simp)
    rw [List.dropLast_concat] at hdir
    rw [pathOf_concat] at h
    obtain ⟨dir', hplace⟩ := nameAt_of_locate? rfl (isFolder_folderOf dir) (hs.isName_getLast hl) h
    rw [locate?_beside (hs.reaches_folderOf hdir) (hs.isName_getLast hl) fun _ => .inl rfl,
      hplace.admits] at h
    exact (Except.ok.inj h).symm

/-- The replacement of what a writable path leads to is clear. -/
theorem Writable.clear (hs : s.IsTree) (h : s.Writable process path bytes)
    (hr : s.replacement process path bytes = .ok r) : r.Clear s := by
  refine ⟨fun l hl t ht => ?_, h.lock r hr, h.temporary r hr⟩
  obtain ⟨l₀, n, hfind, rfl⟩ | ⟨hfind, rfl⟩ := replacement_eq_ok hr
  · obtain ⟨hlocate, hn⟩ := find?_eq_ok_iff.1 hfind
    obtain rfl := hs.eq_of_locate?_pathOf hn hl
    exact hs.ne_link_of_locate? hlocate t ht
  · exact h.target ⟨l, t, hl, ht, hfind⟩

/-! ### The parents of the path -/

/-- What making the parents of a path has come to: there are new directories on the way to the path,
if anything has changed, and what can be replaced is as before. -/
structure Opens (s : Store) (process : Nat) (path : Path) (bytes : ByteArray)
    (made : Store × Except StoreError Unit) : Prop where
  workingDirectory : made.1.workingDirectory = s.workingDirectory
  isTree : made.1.IsTree
  node : ∀ k, made.1.node? k = s.node? k ∨ s.node? k = none ∧ made.1.node? k = some .directory ∧
    ∃ q ∈ path.ancestors.tail, made.1.find? q.text = .ok (k, .directory)
  clear : ∀ r, s.replacement process path bytes = .ok r → r.Clear s → r.Clear made.1
  replacement : made.2 = .ok () → ∀ r, made.1.replacement process path bytes = .ok r →
    s.replacement process path bytes = .ok r
  found : ∀ l n, s.find? path.text = .ok (l, n) → made.1 = s

theorem Opens.refl (hs : s.IsTree) (result : Except StoreError Unit) :
    Opens s process path bytes (s, result) :=
  ⟨rfl, hs, fun _ => .inl rfl, fun _ _ => id, fun _ _ => id, fun _ _ _ => rfl⟩

/-- What the walk along a path says of the path if the path is not at fault by itself. -/
theorem find?_eq_notFound {text : String} (hwalk : s.walk true maxLinks
      (origin s.workingDirectory text.toList) (names text.toList) = .error .notFound)
    (h : s₁.find? text = .error .notFound) : s.find? text = .error .notFound := by
  have hlocate : s.locate? true text = .error .notFound := by
    unfold find? locate? at h
    unfold locate?
    simp only at h ⊢
    split_ifs at h ⊢
    · cases h
    · rfl
    · cases h
    · exact hwalk
  rw [find?, hlocate]

section Parent

variable {root root' : Root} {walked : List (List Char)} {p : List Char}
  {result : Except Fault Unit} {result' : Except StoreError Unit}

/-- Nothing stands yet where a path leads whose parents were made, or could not be made. -/
theorem Makes.node?_eq_none (h : Makes parent s (s₁, result)) (hnew : s₁ ≠ s)
    (hfolder : IsFolder folder) (hname : IsName name)
    (htext : path.text = String.ofList (folder ++ name.toList))
    (hparent : path.parent? = some parent) {name' : String} (hname' : IsName name') {follow : Bool}
    (hl : s₁.locate? follow (String.ofList (folder ++ name'.toList)) = .ok l) :
    s₁.node? l = none := by
  obtain ⟨dir, hplace⟩ := nameAt_of_locate? rfl hfolder hname' hl
  have hparent' : Path.parent? ⟨String.ofList (folder ++ name'.toList)⟩ = some parent :=
    parent?_beside hfolder hname
    htext hname' rfl hparent
  have hfind := NameAt.find?_parent hplace hparent'
  cases result with
  | error fault => exact absurd hfind (h.error (by simp) dir)
  | ok _ =>
    have hnone := ((h.fresh rfl).resolve_left hnew).node?_eq_none hplace hparent' name'
    rw [hplace.locate?_eq (.inr (by simp [hnone])), Except.ok.injEq] at hl
    rw [← hl, hnone]

/-- New directories were made on the way to a path, with or without an end. -/
theorem Makes.opens (h : Makes parent s (s₁, result)) (hnew : s₁ ≠ s)
    (hmissing : ∀ l n, s.find? path.text ≠ .ok (l, n)) (hpath : path.Spells root (p :: walked))
    (hp : IsNamePiece p) (hparent : path.parent? = some parent)
    (hspells : parent.Spells root' walked) (hresult : result' = .ok () → result = .ok ()) :
    Opens s process path bytes (s₁, result') := by
  obtain ⟨hname, folder, hfolder, htext⟩ := exists_folder_of_spells hpath hp
  have hnone : ∀ {name' follow l}, IsName name' →
      s₁.locate? follow (String.ofList (folder ++ name'.toList)) = .ok l → s₁.node? l = none :=
    fun hname' hl => h.node?_eq_none hnew hfolder hname htext hparent hname' hl
  refine ⟨h.grows.workingDirectory, h.grows.isTree, fun k => ?_, fun r hr _ => ?_,
    fun hok r hr => ?_, fun l n hfind => absurd hfind (hmissing l n)⟩
  · obtain hsame | ⟨hk, hdirectory, q, hq, folder', dir, name', hplace, rfl⟩ := h.grows.node k
    · exact .inl hsame
    · refine .inr ⟨hk, hdirectory, q, by rwa [ancestors_of_some hparent], ?_⟩
      exact find?_eq_ok_iff.2 ⟨hplace.locate?_eq (.inr (by simp [hdirectory])), hdirectory⟩
  · obtain ⟨l, n, hfind, -⟩ | ⟨-, rfl⟩ := replacement_eq_ok hr
    · exact absurd hfind (hmissing l n)
    have hslash := hname.no_slash
    refine ⟨fun l hl t ht => ?_, fun ⟨l, t, hl, ht, _⟩ => ?_, fun m hm => ?_⟩
    · rw [hnone hname (htext ▸ hl)] at ht
      cases ht
    · rw [Replacement.lockPath_eq htext] at hl
      rw [hnone (isName_lockName hslash) hl] at ht
      cases ht
    · rw [Replacement.temporaryPath_eq hfolder hslash htext] at hm
      exact hnone (isName_temporaryName process hslash) hm
  · have hfresh := (h.fresh (hresult hok)).resolve_left hnew
    obtain ⟨l, n, hfind, -⟩ | ⟨hfind, rfl⟩ := replacement_eq_ok hr
    · obtain ⟨hl, hn⟩ := find?_eq_ok_iff.1 hfind
      rw [hnone hname (htext ▸ hl)] at hn
      cases hn
    · obtain ⟨-, -, -, -, -, horigin⟩ := names_parent hparent
      have hlost := hfresh.lost (String.ofList p) []
      rw [horigin, names_of_spells hspells] at hlost
      have hwalk :
          names path.text.toList = walked.reverse.map String.ofList ++ [String.ofList p] := by
        rw [names_of_spells hpath]
        simp
      rw [← hwalk] at hlost
      simp only [replacement, find?_eq_notFound hlost hfind]

end Parent

/-- Making the parents of a path in normal form, in a tree. -/
theorem opens_makeParent (hs : s.IsTree) (process : Nat) (raw : String) (bytes : ByteArray) :
    Opens s process (ofString raw) bytes (s.makeParent (ofString raw)) := by
  have hspells := spells_ofString raw
  generalize ofString raw = path at hspells ⊢
  by_cases hfound : ∃ l n, s.find? path.text = .ok (l, n)
  · obtain ⟨l, n, hfind⟩ := hfound
    rw [makeParent_eq_self (find?_eq_ok_iff.1 hfind).1]
    exact .refl hs _
  simp only [not_exists] at hfound
  cases hparent : path.parent? with
  | none =>
    simp only [makeParent, hparent]
    exact .refl hs _
  | some parent =>
    obtain ⟨root, walked, hpath⟩ := hspells.resolve_right fun hhere => by
      obtain ⟨front, name, tail, htext, -⟩ := parent?_eq_some hparent
      have hslash : '/' ∈ path.text.toList := by rw [htext]; simp
      rw [hhere] at hslash
      exact absurd hslash (by decide)
    cases walked with
    | nil => simp [hpath.parent?_nil] at hparent
    | cons p walked =>
      obtain ⟨hnone, -⟩ | ⟨parent', root', hparent', hspells⟩ := hpath.parent?_cons
      · rw [hparent] at hnone; cases hnone
      obtain rfl := Option.some.inj (hparent.symm.trans hparent')
      have hmakes := makeDirectories_spec hs hspells
      have hopens : ∀ result' : Except StoreError Unit,
          (result' = .ok () → (s.makeDirectories (parent.ancestors.map (·.text))).2 = .ok ()) →
          Opens s process path bytes
            ((s.makeDirectories (parent.ancestors.map (·.text))).1, result') := by
        intro result' hresult
        by_cases hnew : (s.makeDirectories (parent.ancestors.map (·.text))).1 = s
        · rw [hnew]
          exact .refl hs _
        · have hp := (rises_or_name hpath).resolve_left fun hrises =>
            hnew (hmakes.rises (rises_of_parent hrises hpath hspells))
          exact hmakes.opens hnew hfound hpath hp hparent hspells hresult
      simp only [makeParent, hparent]
      generalize s.makeDirectories (parent.ancestors.map (·.text)) = made at hopens ⊢
      obtain ⟨s₁, _ | _⟩ := made
      · exact hopens _ nofun
      · exact hopens _ fun _ => rfl

/-! ### The file that is replaced -/

/-- What a write may add at a place: a directory on the way to the path, or an empty file to hold
the lock for what is replaced. -/
inductive Added (s : Store) (process : Nat) (path : Path) (bytes : ByteArray) (s' : Store)
    (k : Location) : Prop
  | directory (q : Path) (hq : q ∈ path.ancestors.tail)
    (h : s'.find? q.text = .ok (k, .directory))
  | lock (r : Replacement) (hr : s.replacement process path bytes = .ok r)
    (h : s'.find? r.lockPath = .ok (k, .file .empty))

/-- What a write leaves, outside some places: all that was there is as before. -/
structure Spares (s : Store) (process : Nat) (path : Path) (bytes : ByteArray)
    (places : Set Location) (s' : Store) : Prop where
  workingDirectory : s'.workingDirectory = s.workingDirectory
  isTree : s'.IsTree
  node : ∀ k ∉ places,
    s'.node? k = s.node? k ∨ s.node? k = none ∧ Added s process path bytes s' k
  link : ∀ k target, s.node? k = some (.link target) → s'.node? k = some (.link target)
  temporary : ∀ r, s.replacement process path bytes = .ok r →
    ∀ m, s'.locate? false r.temporaryPath = .ok m → s'.node? m = none

/-- What has become of a store in which a path was written. -/
inductive Outcome (s : Store) (process : Nat) (path : Path) (bytes : ByteArray) :
    Store × Except StoreError Unit → Prop
  /-- The path is read as the new bytes. They are in the place of the file to which it led. -/
  | replaced {s' : Store} {l : Location} {f : File}
    (read : s'.readBytes path.text = .ok bytes)
    (find : s'.find? path.text = .ok (l, .file f))
    (found : ∀ l₀ n, s.find? path.text = .ok (l₀, n) →
      l₀ = l ∧ ∃ f₀, n = .file f₀ ∧ f.mode = f₀.mode)
    (file : s.FileOrNone l)
    (spares : Spares s process path bytes {l} s') : Outcome s process path bytes (s', .ok ())
  | failed {s' : Store} {e : StoreError} (spares : Spares s process path bytes ∅ s') :
    Outcome s process path bytes (s', .error e)

section Spares

variable {made written : Store × Except StoreError Unit} {f : File} {places : Set Location}

/-- A path that leads to what is left alone leads there when files alone are changed. -/
theorem SameWays.find?_eq {text : String} (h : SameWays s s') (hk : s'.node? k = s.node? k)
    (hfind : s.find? text = .ok (k, n)) : s'.find? text = .ok (k, n) := by
  obtain ⟨hlocate, hn⟩ := find?_eq_ok_iff.1 hfind
  exact find?_eq_ok_iff.2 ⟨h.locate?_eq_ok_iff.2 hlocate, hk.trans hn⟩

theorem Added.mono (h : Added s process path bytes s₁ k) (hways : SameWays s₁ s')
    (hk : s'.node? k = s₁.node? k) : Added s process path bytes s' k := by
  cases h with
  | directory q hq hfind => exact .directory q hq (hways.find?_eq hk hfind)
  | lock r hr hfind => exact .lock r hr (hways.find?_eq hk hfind)

theorem Added.ne_none (h : Added s process path bytes s' k) : s'.node? k ≠ none := by
  cases h with
  | directory q hq hfind => simp [(find?_eq_ok_iff.1 hfind).2]
  | lock r hr hfind => simp [(find?_eq_ok_iff.1 hfind).2]

/-- Nothing was replaced when the directories had been made. -/
theorem Opens.spares (h : Opens s process path bytes made)
    (hclear : ∀ r, s.replacement process path bytes = .ok r → r.Clear s) :
    Spares s process path bytes ∅ made.1 := by
  refine ⟨h.workingDirectory, h.isTree, fun k _ => ?_, fun k t hk => ?_,
    fun r hr => (h.clear r hr (hclear r hr)).temporary⟩
  · obtain hsame | ⟨hnone, -, q, hq, hfind⟩ := h.node k
    · exact .inl hsame
    · exact .inr ⟨hnone, .directory q hq hfind⟩
  · obtain hsame | ⟨hnone, -⟩ := h.node k
    · rw [hsame, hk]
    · rw [hk] at hnone; cases hnone

/-- A file was put at a place to which a path leads, but not in the place of the temporary file. -/
theorem Spares.put (h : Spares s process path bytes ∅ s₁) {text : String} {follow : Bool}
    (hl : s₁.locate? follow text = .ok l) (hfile : s₁.FileOrNone l)
    (htemporary : ∀ r, s.replacement process path bytes = .ok r →
      ∀ m, s₁.locate? false r.temporaryPath = .ok m → m ≠ l) :
    Spares s process path bytes {l} (s₁.put l (.file f)) := by
  have hways : SameWays s₁ (s₁.put l (.file f)) := sameWays_put hfile
  refine ⟨hways.workingDirectory.trans h.workingDirectory, (alters_put hl hfile).isTree h.isTree,
    fun k hk => ?_, fun k t hk => (hways.link k t).2 (h.link k t hk), fun r hr m hm => ?_⟩
  · have hnode : (s₁.put l (.file f)).node? k = s₁.node? k := node?_put_of_ne hfile.ne_nil hk
    obtain hsame | ⟨hnone, hadded⟩ := h.node k (Set.notMem_empty k)
    · exact .inl (hnode.trans hsame)
    · exact .inr ⟨hnone, hadded.mono hways hnode⟩
  · have hm := hways.locate?_eq_ok_iff.1 hm
    rw [node?_put_of_ne hfile.ne_nil (htemporary r hr m hm)]
    exact h.temporary r hr m hm

/-- A file was made to hold the lock. -/
theorem Spares.touch (h : Spares s process path bytes ∅ s₁)
    (hr : s.replacement process path bytes = .ok r) (hclear : r.Clear s₁)
    (hk : s₁.locate? true r.lockPath = .ok k) : Spares s process path bytes ∅ (s₁.touch k) := by
  cases hnode : s₁.node? k with
  | some n => rwa [touch_of_some hnode]
  | none =>
    rw [touch_of_none hnode]
    have hfile := fileOrNone_of_none hnode
    have hput : Spares s process path bytes {k} (s₁.put k (.file .empty)) := by
      refine h.put hk hfile fun r' hr' m hm => ?_
      obtain rfl := Except.ok.inj (hr.symm.trans hr')
      exact hclear.lock_ne_temporary hk hm
    refine { hput with node := fun j _ => ?_ }
    by_cases hj : j = k
    · subst hj
      obtain hsame | ⟨-, hadded⟩ := h.node j (Set.notMem_empty j)
      · refine .inr ⟨hsame ▸ hnode, .lock r hr ?_⟩
        refine find?_eq_ok_iff.2 ⟨?_, node?_put_self hfile.ne_nil⟩
        exact (sameWays_put hfile).locate?_eq_ok_iff.2 hk
      · exact absurd hnode hadded.ne_none
    · exact hput.node j hj

/-- The path is read as the new file when its target was replaced. -/
theorem find?_of_replaced (hs : s.IsTree) (hr : s.replacement process path bytes = .ok r)
    (hl : s.locate? false r.target = .ok l) (hfile : s.FileOrNone l) (hways : SameWays s s')
    (hnode : s'.node? l = some (.file r.newFile)) :
    s'.find? path.text = .ok (l, .file r.newFile) ∧ r.newFile.bytes = bytes ∧
      ∀ l₀ n, s.find? path.text = .ok (l₀, n) →
        l₀ = l ∧ ∃ f₀, n = .file f₀ ∧ r.newFile.mode = f₀.mode := by
  obtain ⟨l₀, n, hfind, rfl⟩ | ⟨hfind, rfl⟩ := replacement_eq_ok hr
  · obtain ⟨hlocate, hn⟩ := find?_eq_ok_iff.1 hfind
    obtain rfl := hs.eq_of_locate?_pathOf hn hl
    refine ⟨find?_eq_ok_iff.2 ⟨hways.locate?_eq_ok_iff.2 hlocate, hnode⟩, rfl, ?_⟩
    intro l₀ n' hfind'
    cases hfind.symm.trans hfind'
    cases n with
    | file f₀ => exact ⟨rfl, f₀, rfl, rfl⟩
    | directory => exact absurd hn hfile.1
    | link t => exact absurd hn (hfile.2 t)
  · have hlocate := locate?_true_of_false hl hfile.2
    refine ⟨find?_eq_ok_iff.2 ⟨hways.locate?_eq_ok_iff.2 hlocate, hnode⟩, rfl, ?_⟩
    intro l₀ n hfind'
    rw [hfind] at hfind'
    cases hfind'

/-- What has become of a store when the replacement has ended. -/
theorem Opens.outcome (h : Opens s process path bytes (s₁, .ok ()))
    (hclear : ∀ r, s.replacement process path bytes = .ok r → r.Clear s)
    (hr : s₁.replacement process path bytes = .ok r) (hcomes : Replacement.Comes r s₁ written) :
    Outcome s process path bytes written := by
  have hr₀ := h.replacement rfl r hr
  have hclear₁ := h.clear r hr₀ (hclear r hr₀)
  have hspares := h.spares hclear
  cases hcomes with
  | refused e => exact .failed hspares
  | failed hk e => exact .failed (hspares.touch hr₀ hclear₁ hk)
  | @replaced k l hk hl hfile =>
    have hways : SameWays s₁ (s₁.touch k) := sameWays_touch
    have hfile' := hways.fileOrNone_iff.2 hfile
    obtain ⟨hfind, hbytes, hfound⟩ := find?_of_replaced h.isTree hr hl hfile
      (hways.trans (sameWays_put hfile')) (node?_put_self (n := .file r.newFile) hfile.ne_nil)
    refine .replaced ?_ hfind (fun l₀ n hn => ?_) ?_ ((hspares.touch hr₀ hclear₁ hk).put
      (hways.locate?_eq_ok_iff.2 hl) hfile' fun r' hr' m hm => ?_)
    · simp only [readBytes, hfind, hbytes]
    · refine hfound l₀ n ?_
      rwa [h.found l₀ n hn]
    · obtain hsame | ⟨-, hdirectory, -⟩ := h.node l
      · exact ⟨hsame ▸ hfile.1, fun t => hsame ▸ hfile.2 t⟩
      · exact absurd hdirectory hfile.1
    · obtain rfl := Except.ok.inj (hr₀.symm.trans hr')
      exact (Replacement.target_ne_temporary h.isTree hl hfile (hways.locate?_eq_ok_iff.1 hm)).symm

end Spares

end Store

end BlockEdit
