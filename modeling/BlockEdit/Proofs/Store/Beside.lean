import BlockEdit.Proofs.Path.Parents
import BlockEdit.Proofs.Store.Ways
import BlockEdit.Store.Write
import Mathlib.Data.List.Basic
import Mathlib.Data.List.Induction

/-!
# Paths in one directory

A path that ends with a name consists of a folder, which is empty or ends with a separator, and that
name. The paths of a folder that leads into a directory lead to the places in that directory
(`locate?_beside`), whatever stands there, as long as the whole path and its name are not too long
(`admits`).

* The path of a place in a tree has the folder of its directory (`pathOf_concat`, `reaches_folder`).
* The parent of a path that leads somewhere is a directory (`makeParent_eq_self`).
-/

namespace BlockEdit

namespace Store

variable {s s' : Store} {follow : Bool} {dir l : Location} {name : String}
  {folder : List Char} {path parent : Path} {n : FileNode}

/-- What can stand in front of the last name of a path. -/
def IsFolder (folder : List Char) : Prop := folder = [] ∨ ∃ front, folder = front ++ ['/']

/-- The names on the way into a folder. -/
def directoryNames (folder : List Char) : List String := (Path.named folder).map String.ofList

/-- The folder leads into a directory. -/
def Reaches (s : Store) (folder : List Char) (dir : Location) : Prop :=
  IsFolder folder ∧ s.node? dir = some .directory ∧
    ∃ links, Leads s maxLinks (origin s.workingDirectory folder) (directoryNames folder) links dir

theorem Reaches.mono (hs : KeepsWays s s') (h : Reaches s folder dir) : Reaches s' folder dir := by
  obtain ⟨hfolder, hdir, links, hleads⟩ := h
  refine ⟨hfolder, hs.directory hdir, links, ?_⟩
  rw [hs.workingDirectory]
  exact hleads.mono hs

/-- The bounds on a path with the given folder and name. -/
def admits (folder : List Char) (name : String) : Except Fault Unit :=
  if '\x00' ∈ folder ++ name.toList then .error .unusablePath
  else if maxPathSize < Text.byteSize (folder ++ name.toList) then .error .nameTooLong
  else if maxNameSize < name.utf8ByteSize then .error .nameTooLong
  else .ok ()

/-! ### The names of a path -/

theorem names_eq (path : List Char) :
    names path = directoryNames path ++
      if path.getLast? = some '/' ∧ directoryNames path ≠ [] then ["."] else [] := by
  change (if path.getLast? = some '/' ∧ directoryNames path ≠ [] then
    directoryNames path ++ ["."] else directoryNames path) = _
  split
  · rfl
  · rw [List.append_nil]

theorem directoryNames_append (front rest : List Char) :
    directoryNames (front ++ '/' :: rest) = directoryNames front ++ directoryNames rest := by
  rw [directoryNames, Path.named_append, List.map_append, directoryNames, directoryNames]

theorem directoryNames_singleton (hne : name ≠ "") (hslash : '/' ∉ name.toList) :
    directoryNames name.toList = [name] := by
  rw [directoryNames, Path.named_eq_singleton (by simpa using hne) hslash]
  simp

theorem directoryNames_folder (hfolder : IsFolder folder) (hne : name ≠ "")
    (hslash : '/' ∉ name.toList) :
    directoryNames (folder ++ name.toList) = directoryNames folder ++ [name] := by
  rcases hfolder with rfl | ⟨front, rfl⟩
  · exact directoryNames_singleton hne hslash
  · rw [List.append_assoc, List.singleton_append, directoryNames_append,
      directoryNames_append front [], directoryNames_singleton hne hslash]
    simp [directoryNames]

/-- The names of a path that ends with one piece more than its folder. -/
theorem names_folder (hfolder : IsFolder folder) (hne : name ≠ "") (hslash : '/' ∉ name.toList) :
    names (folder ++ name.toList) = directoryNames folder ++ [name] := by
  have hchars : name.toList ≠ [] := by simpa using hne
  have hlast : (folder ++ name.toList).getLast? ≠ some '/' := by
    rw [List.getLast?_append, List.getLast?_eq_some_getLast hchars, Option.some_or]
    exact fun h => hslash (Option.some.inj h ▸ List.getLast_mem hchars)
  rw [names_eq, if_neg fun h => hlast h.1, List.append_nil,
    directoryNames_folder hfolder hne hslash]

/-- A path that is written with the pieces has their names. -/
theorem names_of_pieces (root : Path.Root) {ps : List (List Char)}
    (hps : ∀ p ∈ ps, p ≠ [] ∧ '/' ∉ p) :
    names (root.chars ++ Path.joinPieces ps) = ps.map String.ofList := by
  have hnamed : Path.named (root.chars ++ Path.joinPieces ps) = ps := by
    have hjoin := Path.named_joinPieces hps
    cases root <;> simpa [Path.Root.chars] using hjoin
  rw [names_eq, directoryNames, hnamed, if_neg, List.append_nil]
  rintro ⟨hlast, hne⟩
  have hpsne : ps ≠ [] := by simpa using hne
  obtain ⟨front, p, rfl⟩ := (List.eq_nil_or_concat' ps).resolve_left hpsne
  obtain ⟨hp, hslash⟩ := hps p (by simp)
  have hend : ∃ before, root.chars ++ Path.joinPieces (front ++ [p]) = before ++ p := by
    by_cases hfront : front = []
    · exact ⟨root.chars, by rw [hfront]; rfl⟩
    · exact ⟨root.chars ++ (Path.joinPieces front ++ ['/']), by
        rw [Path.joinPieces_concat hfront]; simp⟩
  obtain ⟨before, hbefore⟩ := hend
  rw [hbefore, List.getLast?_append, List.getLast?_eq_some_getLast hp, Option.some_or] at hlast
  exact hslash (Option.some.inj hlast ▸ List.getLast_mem hp)

theorem origin_folder (hfolder : IsFolder folder) (hname : IsName name) (here : Location) :
    origin here (folder ++ name.toList) = origin here folder := by
  rcases hfolder with rfl | ⟨front, rfl⟩
  · have hhead : name.toList.head? ≠ some '/' := fun h =>
      hname.no_slash (List.mem_of_head? h)
    simp [origin, hhead]
  · cases front <;> simp [origin]

/-! ### The places of a directory -/

/-- A path of a folder leads to a place in the directory of the folder. -/
theorem locate?_beside (h : Reaches s folder dir) (hname : IsName name)
    (hlink : admits folder name = .ok () →
      follow = false ∨ ∀ target, s.node? (dir ++ [name]) ≠ some (.link target)) :
    s.locate? follow (String.ofList (folder ++ name.toList)) =
      (admits folder name).map fun _ => dir ++ [name] := by
  obtain ⟨hfolder, hdir, links, hleads⟩ := h
  have hne : String.ofList (folder ++ name.toList) ≠ "" := by
    intro h
    have := congrArg String.toList h
    simp only [String.toList_ofList, String.toList_empty, List.append_eq_nil_iff] at this
    exact hname.ne_empty (by simpa using this.2)
  simp only [locate?, admits, String.toList_ofList, if_neg hne, ← Text.byteSize_eq_utf8ByteSize]
  split
  · rfl
  split
  · rfl
  rw [names_folder hfolder hname.ne_empty hname.no_slash, origin_folder hfolder hname,
    walk_append hleads (by simp)]
  split
  · next hsize => exact walk_singleton_tooLong hdir ⟨hname.ne_here, hname.ne_up⟩ hsize
  · next hnul hlarge hsize =>
    refine walk_singleton hdir ⟨hname.ne_here, hname.ne_up⟩ (not_lt.1 hsize) (hlink ?_)
    rw [admits, if_neg hnul, if_neg hlarge, if_neg hsize]

/-! ### The path of a place -/

/-- The folder of the paths of the places in a directory. -/
def folderOf (dir : Location) : List Char := '/' :: dir.flatMap fun x => x.toList ++ ['/']

theorem pathOf_concat (dir : Location) (name : String) :
    pathOf (dir ++ [name]) = String.ofList (folderOf dir ++ name.toList) := by
  have h : ∀ dir : Location, Path.joinPieces ((dir ++ [name]).map String.toList) =
      (dir.flatMap fun x => x.toList ++ ['/']) ++ name.toList := fun dir => by
    induction dir with
    | nil => rfl
    | cons x dir ih =>
      rw [List.cons_append, List.map_cons, Path.joinPieces_cons (by simp), ih]
      simp
  rw [pathOf, h, folderOf, List.cons_append]

theorem isFolder_folderOf (dir : Location) : IsFolder (folderOf dir) := by
  right
  induction dir using List.reverseRecOn with
  | nil => exact ⟨[], rfl⟩
  | append_singleton dir x _ =>
    exact ⟨'/' :: ((dir.flatMap fun x => x.toList ++ ['/']) ++ x.toList), by simp [folderOf]⟩

theorem directoryNames_folderOf (hdir : ∀ x ∈ dir, IsName x) :
    directoryNames (folderOf dir) = dir := by
  have h : directoryNames (folderOf dir) =
      directoryNames (dir.flatMap fun x => x.toList ++ ['/']) := by
    rw [directoryNames, folderOf, Path.named_slash, directoryNames]
  rw [h]
  induction dir with
  | nil => rfl
  | cons x dir ih =>
    obtain ⟨hx, hdir⟩ := List.forall_mem_cons.1 hdir
    rw [List.flatMap_cons, List.append_assoc, List.singleton_append, directoryNames_append,
      directoryNames_singleton hx.ne_empty hx.no_slash, ih hdir]
    · rfl
    · rw [directoryNames, folderOf, Path.named_slash, directoryNames]

/-- Every part of the way to a place in a tree leads into a directory. -/
theorem IsTree.directory_of_prefix (hs : s.IsTree) {p : Location} (hl : s.node? l = some n)
    (hp : p <+: l) (hne : p ≠ l) : s.node? p = some .directory := by
  induction l using List.reverseRecOn generalizing n with
  | nil => exact absurd (List.prefix_nil.1 hp) hne
  | append_singleton l x ih =>
    have hparent := hs.parent hl (by simp)
    rw [List.dropLast_concat] at hparent
    rcases List.prefix_concat_iff.1 hp with rfl | hp
    · exact absurd rfl hne
    · by_cases heq : p = l
      · rw [heq, hparent]
      · exact ih hparent hp heq

/-- In a tree, the names of a directory lead to it from the root. -/
theorem IsTree.reaches_folderOf (hs : s.IsTree) (hdir : s.node? dir = some .directory) :
    Reaches s (folderOf dir) dir := by
  refine ⟨isFolder_folderOf dir, hdir, maxLinks, ?_⟩
  have hbelow : ∀ p, p <+: dir → s.node? p = some .directory := fun p hp => by
    by_cases heq : p = dir
    · rw [heq, hdir]
    · exact hs.directory_of_prefix hdir hp heq
  rw [directoryNames_folderOf fun x hx => (hs.name hdir x hx).1]
  -- The way is walked from the root, so the induction is on what is left of it.
  have h : ∀ rest front, front ++ rest = dir → Leads s maxLinks front rest maxLinks dir := by
    intro rest
    induction rest with
    | nil =>
      rintro front rfl
      rw [List.append_nil]
      exact .arrived
    | cons x rest ih =>
      intro front hfront
      obtain ⟨hx, hsize⟩ := hs.name hdir x (by simp [← hfront])
      refine .enter (hbelow _ ⟨_, hfront⟩) ⟨hx.ne_here, hx.ne_up⟩ hsize ?_ (ih _ ?_)
      · exact hbelow _ ⟨rest, by rw [← hfront]; simp⟩
      · rw [← hfront]; simp
  exact h dir [] rfl

/-! ### The parent of a path -/

theorem locate?_eq_ok_iff {path : String} :
    s.locate? follow path = .ok l ↔ '\x00' ∉ path.toList ∧ path ≠ "" ∧
      path.utf8ByteSize ≤ maxPathSize ∧
      s.walk follow maxLinks (origin s.workingDirectory path.toList) (names path.toList) =
        .ok l := by
  unfold locate?
  simp only
  split
  · simp_all
  split
  · simp_all
  split
  · next hsize =>
    constructor
    · intro h
      cases h
    · rintro ⟨-, -, hle, -⟩
      exact absurd hsize (Nat.not_lt.2 hle)
  · simp_all

theorem find?_eq_ok_iff {path : String} :
    s.find? path = .ok (l, n) ↔ s.locate? true path = .ok l ∧ s.node? l = some n := by
  unfold find?
  cases s.locate? true path with
  | error fault => simp
  | ok l' =>
    simp only [Except.ok.injEq]
    constructor
    · intro h
      cases hnode : s.node? l' with
      | none => rw [hnode] at h; cases h
      | some n' =>
        rw [hnode] at h
        cases h
        exact ⟨rfl, hnode⟩
    · rintro ⟨rfl, hnode⟩
      rw [hnode]

theorem directoryNames_ne_nil {name tail : List Char} (hne : name ≠ []) (hslash : '/' ∉ name)
    (htail : ∀ c ∈ tail, c = '/') : directoryNames (name ++ tail) ≠ [] := by
  cases tail with
  | nil => simp [directoryNames, Path.named_eq_singleton hne hslash]
  | cons c tail =>
    obtain rfl := htail c (by simp)
    rw [directoryNames_append]
    simp [directoryNames, Path.named_eq_singleton hne hslash]

/-- The parent of a path begins where the path begins, and its names are the first ones of the
path, except that a name for the directory itself may follow. -/
theorem names_parent (h : path.parent? = some parent) :
    ∃ front ys, ys ≠ [] ∧ names path.text.toList = directoryNames front ++ ys ∧
      (names parent.text.toList = directoryNames front ∨
        names parent.text.toList = directoryNames front ++ ["."]) ∧
      ∀ here, origin here parent.text.toList = origin here path.text.toList := by
  obtain ⟨front, name, tail, htext, hne, hslash, htail, hparent⟩ := Path.parent?_eq_some h
  have hnames := names_eq path.text.toList
  rw [htext, directoryNames_append, List.append_assoc, ← htext] at hnames
  have hlast := directoryNames_ne_nil hne hslash htail
  refine ⟨front, _, List.append_ne_nil_of_left_ne_nil hlast _, hnames, ?_, fun here => ?_⟩
  · rw [hparent]
    by_cases hfront : front = []
    · subst hfront
      left
      rfl
    · rw [if_neg hfront, names_eq]
      split
      · right; rfl
      · left; rw [List.append_nil]
  · rw [hparent, htext]
    cases front <;> simp [origin]

/-- The bounds on a path hold of its parent as well. -/
theorem parent_bounds (hparent : path.parent? = some parent) (hnul : '\x00' ∉ path.text.toList)
    (hsize : path.text.utf8ByteSize ≤ maxPathSize) :
    '\x00' ∉ parent.text.toList ∧ parent.text ≠ "" ∧ parent.text.utf8ByteSize ≤ maxPathSize := by
  obtain ⟨front, name, tail, htext, -, -, -, htextParent⟩ := Path.parent?_eq_some hparent
  refine ⟨?_, fun h => ?_, ?_⟩
  · rw [htext] at hnul
    rw [htextParent]
    split <;> simp_all
  · rw [h] at htextParent
    split at htextParent <;> simp_all
  · rw [← Text.byteSize_toList, htext, Text.byteSize_append, Text.byteSize_cons] at hsize
    rw [← Text.byteSize_toList, htextParent]
    have := '/'.utf8Size_pos
    split
    · simp only [Text.byteSize_cons, Text.byteSize_nil]; omega
    · omega

/-- A path that leads somewhere has a parent that leads into a directory. -/
theorem locate?_parent (hpath : s.locate? true path.text = .ok l)
    (hparent : path.parent? = some parent) :
    ∃ dir, s.node? dir = some .directory ∧ s.locate? true parent.text = .ok dir ∧
      ∃ l' n, s.locate? false parent.text = .ok l' ∧ s.node? l' = some n := by
  obtain ⟨hnul, hne, hsize, hwalk⟩ := locate?_eq_ok_iff.1 hpath
  obtain ⟨front, ys, hys, hnames, hparentNames, horigin⟩ := names_parent hparent
  rw [hnames] at hwalk
  obtain ⟨links, dir, hleads, hdir, -⟩ := exists_leads_of_walk hwalk hys
  obtain ⟨hnulParent, hneParent, hsizeParent⟩ := parent_bounds hparent hnul hsize
  have hlocate : ∀ {follow l}, s.walk follow maxLinks (origin s.workingDirectory
      parent.text.toList) (names parent.text.toList) = .ok l →
        s.locate? follow parent.text = .ok l := fun h =>
    locate?_eq_ok_iff.2 ⟨hnulParent, hneParent, hsizeParent, h⟩
  rw [horigin] at hlocate
  rcases hparentNames with h | h
  · rw [h] at hlocate
    obtain ⟨l', n, hwalk', hnode⟩ := exists_walk_of_leads hleads hdir
    exact ⟨dir, hdir, hlocate (walk_of_leads hleads), l', n, hlocate hwalk', hnode⟩
  · have hwalk' : ∀ follow, s.walk follow maxLinks (origin s.workingDirectory path.text.toList)
        (directoryNames front ++ ["."]) = .ok dir := fun follow => by
      rw [walk_append hleads (by simp), walk_eq_of_advance_eq (advance_here hdir), walk_nil]
    rw [h] at hlocate
    exact ⟨dir, hdir, hlocate (hwalk' true), dir, _, hlocate (hwalk' false), hdir⟩

/-- Nothing is made where the parent of a path is there already. -/
theorem makeParent_eq_self (hpath : s.locate? true path.text = .ok l) :
    s.makeParent path = (s, .ok ()) := by
  unfold makeParent
  split
  · rfl
  · next parent hparent =>
    obtain ⟨dir, hdir, hfollow, l', n, hlocate, hnode⟩ := locate?_parent hpath hparent
    have hmake : s.makeDirectory parent.text = .error .alreadyExists := by
      rw [makeDirectory, hlocate]
      simp only [hnode]
    have hhas : s.hasDirectory parent.text = true := by
      simp only [hasDirectory, find?, hfollow, hdir]
    have hmakes : s.makeDirectories (parent.ancestors.map (·.text)) = (s, .ok ()) := by
      rw [Path.ancestors, List.map_cons, makeDirectories, hmake]
      simp only [hhas, if_true]
    rw [hmakes]

end Store

end BlockEdit
