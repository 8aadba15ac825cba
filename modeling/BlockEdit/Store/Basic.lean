import BlockEdit.Store.Fault
import Std.Data.ExtTreeMap

/-!
# The files that a program works on

A `Store` is a file system seen from a working directory: a map from locations to files, directories
and symbolic links. A location is the list of the names that lead to it from the root, and the root
is always a directory. A store may also refuse what a writer asks of it, whatever stands in it. Two
stores with the same working directory and the same nodes that refuse the same are equal.
-/

namespace BlockEdit

/-- The names that lead from the root to a place. -/
abbrev Location := List String

/-- A regular file: its bytes, its permissions, and whether somebody holds the lock on it. -/
structure File where
  bytes : ByteArray
  mode : Nat
  locked : Bool

instance : DecidableEq File := fun a b =>
  decidable_of_decidable_of_iff
    (p := a.bytes.data = b.bytes.data ∧ a.mode = b.mode ∧ a.locked = b.locked)
    (by cases a; cases b; simp [ByteArray.ext_iff])

/-- What can stand at a location. -/
inductive FileNode where
  | file (file : File)
  | directory
  /-- A symbolic link to the path `target`. -/
  | link (target : String)
  deriving DecidableEq

/-- A file system, and the working directory in it. -/
structure Store where
  nodes : Std.ExtTreeMap Location FileNode
  workingDirectory : Location
  /-- The requests that are refused, for a reason that the nodes do not show. -/
  refuses : Request → Option Refusal

/-- The permissions of new files. -/
def File.defaultMode : Nat := 0o644

/-- A file without bytes. -/
def File.empty : File := ⟨.empty, defaultMode, false⟩

namespace Store

/-- What stands at a location. -/
def node? (s : Store) (l : Location) : Option FileNode :=
  if l = [] then some .directory else s.nodes[l]?

/-- The store with a node at a location, in the place of the one that was there. -/
def put (s : Store) (l : Location) (n : FileNode) : Store := { s with nodes := s.nodes.insert l n }

/-- The store without the node at a location. -/
def erase (s : Store) (l : Location) : Store := { s with nodes := s.nodes.erase l }

@[simp]
theorem node?_nil (s : Store) : s.node? [] = some .directory := rfl

theorem node?_put (s : Store) {l : Location} (hl : l ≠ []) (n : FileNode) (l' : Location) :
    (s.put l n).node? l' = if l' = l then some n else s.node? l' := by
  simp only [node?, put, Std.ExtTreeMap.getElem?_insert, Std.compare_eq_iff_eq]
  split
  · next h => simp [h, Ne.symm hl]
  · split <;> simp_all [eq_comm]

theorem node?_erase (s : Store) {l : Location} (hl : l ≠ []) (l' : Location) :
    (s.erase l).node? l' = if l' = l then none else s.node? l' := by
  simp only [node?, erase, Std.ExtTreeMap.getElem?_erase, Std.compare_eq_iff_eq]
  split
  · next h => simp [h, Ne.symm hl]
  · split <;> simp_all [eq_comm]

/-- The directories that lead to a location, itself included. -/
def ancestors (l : Location) : List Location :=
  (List.range l.length).map fun n => l.take (n + 1)

/-- The store in which nothing stands but the root, and which refuses nothing. -/
def root (workingDirectory : Location) : Store := ⟨{}, workingDirectory, fun _ => none⟩

/-- The store that holds nothing but its working directory. -/
def empty (workingDirectory : Location) : Store :=
  (ancestors workingDirectory).foldl (fun s l => s.put l .directory) (root workingDirectory)

end Store

end BlockEdit
