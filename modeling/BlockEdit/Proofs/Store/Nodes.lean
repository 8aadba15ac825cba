import BlockEdit.Store.Resolve
import Mathlib.Tactic.Common

/-!
# Changing the nodes of a store

Laws of `Store.put` and `Store.erase`, and two notions on top of them:

* `Store.Keeps s s'`: all directories and links of `s` stand in `s'` (`Store.KeepsWays`), and so do
  its files, which may hold other bytes there;
* `Store.IsTree s`: what stands somewhere stands in a directory, under a name.
-/

namespace BlockEdit

namespace Store

variable {s s' s'' : Store} {l l' : Location} {m n : FileNode}

/-- Stores with one working directory that refuse the same are equal when the same nodes stand in
them. -/
theorem ext_nodes (hhere : s.workingDirectory = s'.workingDirectory)
    (hrefuses : s.refuses = s'.refuses) (h : ∀ l : Location, s.nodes[l]? = s'.nodes[l]?) :
    s = s' := by
  obtain ⟨nodes, here, refuses⟩ := s
  obtain ⟨nodes', here', refuses'⟩ := s'
  obtain rfl : here = here' := hhere
  obtain rfl : refuses = refuses' := hrefuses
  obtain rfl : nodes = nodes' := Std.ExtTreeMap.ext_getElem? h
  rfl

theorem node?_root (here l : Location) :
    (root here).node? l = if l = [] then some .directory else none := by
  simp [node?, root]

theorem getElem?_put (s : Store) (l l' : Location) (n : FileNode) :
    (s.put l n).nodes[l']? = if l = l' then some n else s.nodes[l']? := by
  simp [put, Std.ExtTreeMap.getElem?_insert]

theorem getElem?_erase (s : Store) (l l' : Location) :
    (s.erase l).nodes[l']? = if l = l' then none else s.nodes[l']? := by
  simp [erase, Std.ExtTreeMap.getElem?_erase]

theorem node?_of_ne_nil (hl : l ≠ []) : s.node? l = s.nodes[l]? := if_neg hl

theorem node?_put_self (hl : l ≠ []) : (s.put l n).node? l = some n := by
  rw [node?_put s hl, if_pos rfl]

theorem node?_put_of_ne (hl : l ≠ []) (hne : l' ≠ l) : (s.put l n).node? l' = s.node? l' := by
  rw [node?_put s hl, if_neg hne]

@[simp] theorem put_put_self : (s.put l m).put l n = s.put l n := by
  refine ext_nodes rfl rfl fun l' => ?_
  simp only [getElem?_put]
  split <;> rfl

theorem put_comm (h : l ≠ l') : (s.put l m).put l' n = (s.put l' n).put l m := by
  refine ext_nodes rfl rfl fun l'' => ?_
  simp only [getElem?_put]
  by_cases h₁ : l = l''
  · subst h₁
    rw [if_neg h.symm, if_pos rfl, if_pos rfl]
  · simp only [if_neg h₁]

theorem put_eq_self (hl : l ≠ []) (h : s.node? l = some n) : s.put l n = s := by
  refine ext_nodes rfl rfl fun l' => ?_
  rw [getElem?_put]
  split
  · next heq => rw [← heq, ← node?_of_ne_nil hl, h]
  · rfl

/-- A node that was put where nothing stood is taken away again. -/
theorem erase_put (hl : l ≠ []) (h : s.node? l = none) : (s.put l n).erase l = s := by
  refine ext_nodes rfl rfl fun l' => ?_
  rw [getElem?_erase, getElem?_put]
  split
  · next heq => rw [← heq, ← node?_of_ne_nil hl, h]
  · rfl

theorem erase_eq_self (hl : l ≠ []) (h : s.node? l = none) : s.erase l = s := by
  refine ext_nodes rfl rfl fun l' => ?_
  rw [getElem?_erase]
  split
  · next heq => rw [← heq, ← node?_of_ne_nil hl, h]
  · rfl

/-- All directories and links of `s` stand in `s'`. -/
structure KeepsWays (s s' : Store) : Prop where
  workingDirectory : s'.workingDirectory = s.workingDirectory
  directory : ∀ {l}, s.node? l = some .directory → s'.node? l = some .directory
  link : ∀ {l target}, s.node? l = some (.link target) → s'.node? l = some (.link target)

theorem KeepsWays.refl (s : Store) : KeepsWays s s := ⟨rfl, id, id⟩

/-- Everything that stands in `s` stands in `s'`, where files may hold other bytes. -/
structure Keeps (s s' : Store) : Prop where
  workingDirectory : s'.workingDirectory = s.workingDirectory
  directory : ∀ {l}, s.node? l = some .directory → s'.node? l = some .directory
  link : ∀ {l target}, s.node? l = some (.link target) → s'.node? l = some (.link target)
  file : ∀ {l f}, s.node? l = some (.file f) → ∃ f', s'.node? l = some (.file f')

theorem Keeps.ways (h : Keeps s s') : KeepsWays s s' := ⟨h.workingDirectory, h.directory, h.link⟩

theorem Keeps.refl (s : Store) : Keeps s s := ⟨rfl, id, id, fun h => ⟨_, h⟩⟩

theorem Keeps.trans (h : Keeps s s') (h' : Keeps s' s'') : Keeps s s'' where
  workingDirectory := h'.workingDirectory.trans h.workingDirectory
  directory hl := h'.directory (h.directory hl)
  link hl := h'.link (h.link hl)
  file hl := by
    obtain ⟨f, hf⟩ := h.file hl
    exact h'.file hf

/-- What stands at a location may be replaced by a file, if anything, but not a directory or a
link. -/
def FileOrNone (s : Store) (l : Location) : Prop :=
  s.node? l ≠ some .directory ∧ ∀ target, s.node? l ≠ some (.link target)

theorem FileOrNone.ne_nil (h : s.FileOrNone l) : l ≠ [] := by
  rintro rfl
  exact h.1 (node?_nil s)

theorem fileOrNone_of_none (h : s.node? l = none) : s.FileOrNone l := by
  simp [FileOrNone, h]

theorem fileOrNone_of_file {f : File} (h : s.node? l = some (.file f)) : s.FileOrNone l := by
  simp [FileOrNone, h]

theorem keeps_put {f : File} (h : s.FileOrNone l) : Keeps s (s.put l (.file f)) where
  workingDirectory := rfl
  directory {l'} hl' := by
    have hne : l' ≠ l := fun heq => h.1 (heq ▸ hl')
    rwa [node?_put_of_ne h.ne_nil hne]
  link {l' target} hl' := by
    have hne : l' ≠ l := fun heq => h.2 target (heq ▸ hl')
    rwa [node?_put_of_ne h.ne_nil hne]
  file {l' f'} hl' := by
    by_cases hne : l' = l
    · exact ⟨f, by rw [hne, node?_put_self h.ne_nil]⟩
    · exact ⟨f', by rwa [node?_put_of_ne h.ne_nil hne]⟩

end Store

/-- A text that can name something in a directory. -/
structure IsName (name : String) : Prop where
  ne_empty : name ≠ ""
  ne_here : name ≠ "."
  ne_up : name ≠ ".."
  no_slash : '/' ∉ name.toList

theorem isName_iff {name : String} :
    IsName name ↔ name ≠ "" ∧ name ≠ "." ∧ name ≠ ".." ∧ '/' ∉ name.toList :=
  ⟨fun ⟨hempty, hhere, hup, hslash⟩ => ⟨hempty, hhere, hup, hslash⟩,
    fun ⟨hempty, hhere, hup, hslash⟩ => ⟨hempty, hhere, hup, hslash⟩⟩

instance (name : String) : Decidable (IsName name) := decidable_of_iff _ isName_iff.symm

namespace Store

/-- What stands somewhere stands in a directory, and a name of no excessive size leads to it. -/
structure IsTree (s : Store) : Prop where
  parent : ∀ {l n}, s.node? l = some n → l ≠ [] → s.node? l.dropLast = some .directory
  name : ∀ {l n}, s.node? l = some n → ∀ x ∈ l, IsName x ∧ x.utf8ByteSize ≤ maxNameSize

variable {s : Store} {dir : Location} {name : String} {f : File}

/-- The root alone is a tree. -/
theorem isTree_root (here : Location) : IsTree (root here) where
  parent h hne := by simp [node?_root, hne] at h
  name {l n} h := by
    by_cases hne : l = []
    · simp [hne]
    · simp [node?_root, hne] at h

/-- A tree stays one when a name in one of its directories is given a node, but not in the place of
a directory. -/
theorem IsTree.put_node (hs : s.IsTree) (hdir : s.node? dir = some .directory) (hname : IsName name)
    (hsize : name.utf8ByteSize ≤ maxNameSize) (hput : s.node? (dir ++ [name]) ≠ some .directory)
    (n : FileNode) : (s.put (dir ++ [name]) n).IsTree where
  parent {l n} hl hne := by
    have hparent : s.node? l.dropLast = some .directory := by
      by_cases heq : l = dir ++ [name]
      · rwa [heq, List.dropLast_concat]
      · rw [node?_put_of_ne (by simp) heq] at hl
        exact hs.parent hl hne
    have hother : l.dropLast ≠ dir ++ [name] := fun heq => hput (by rw [← heq, hparent])
    rw [node?_put_of_ne (by simp) hother, hparent]
  name {l n} hl x hx := by
    by_cases heq : l = dir ++ [name]
    · rw [heq, List.mem_append, List.mem_singleton] at hx
      rcases hx with hx | rfl
      · exact hs.name hdir x hx
      · exact ⟨hname, hsize⟩
    · rw [node?_put_of_ne (by simp) heq] at hl
      exact hs.name hl x hx

/-- A name in a directory is given a file. -/
theorem IsTree.put (hs : s.IsTree) (hdir : s.node? dir = some .directory) (hname : IsName name)
    (hsize : name.utf8ByteSize ≤ maxNameSize) (hput : s.FileOrNone (dir ++ [name])) :
    (s.put (dir ++ [name]) (.file f)).IsTree :=
  hs.put_node hdir hname hsize hput.1 _

end Store

end BlockEdit
