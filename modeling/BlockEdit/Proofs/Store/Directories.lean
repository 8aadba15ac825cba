import BlockEdit.Proofs.Path.Ancestors
import BlockEdit.Proofs.Store.SameWays

/-!
# Making the directories of a path

`Store.makeDirectories` makes the parents of a path that are missing, and then the path itself a
directory. `makeDirectories_spec` says what that comes to for a normalized path in a tree: it only
makes directories, where nothing stood, at places of the path and its parents (`Grows`); it succeeds
if and only if the path leads to a directory afterwards; and if it succeeds and has changed
anything, the directory of the path is a new one, with nothing in it (`Fresh`).
-/

namespace BlockEdit.Store

open BlockEdit.Path

variable {s s' s'' : Store} {follow : Bool} {links : Nat} {here dir l k : Location}
  {name path : String} {folder : List Char} {xs : List String} {n : FileNode}

/-! ### Paths that end with a name -/

/-- The path consists of a folder, which leads into a directory, and a name. -/
structure NameAt (s : Store) (path : String) (folder : List Char) (dir : Location) (name : String) :
    Prop where
  text : path = String.ofList (folder ++ name.toList)
  isName : IsName name
  reaches : Reaches s folder dir
  admits : admits folder name = .ok ()

theorem NameAt.mono (h : NameAt s path folder dir name) (hs : KeepsWays s s') :
    NameAt s' path folder dir name :=
  ⟨h.text, h.isName, h.reaches.mono hs, h.admits⟩

theorem NameAt.locate?_eq (h : NameAt s path folder dir name)
    (hlink : follow = false ∨ ∀ target, s.node? (dir ++ [name]) ≠ some (.link target)) :
    s.locate? follow path = .ok (dir ++ [name]) := by
  rw [h.text, locate?_beside h.reaches h.isName fun _ => hlink, h.admits, Except.map]

/-- A path that ends with a name and leads somewhere has a folder that leads into a directory. -/
theorem nameAt_of_locate? (htext : path = String.ofList (folder ++ name.toList))
    (hfolder : IsFolder folder) (hname : IsName name) (h : s.locate? follow path = .ok l) :
    ∃ dir, NameAt s path folder dir name := by
  obtain ⟨hnul, -, hsize, hwalk⟩ := locate?_eq_ok_iff.1 h
  rw [htext, String.toList_ofList] at hnul hwalk
  rw [htext, ← Text.byteSize_eq_utf8ByteSize] at hsize
  rw [names_folder hfolder hname.ne_empty hname.no_slash, origin_folder hfolder hname] at hwalk
  obtain ⟨links, dir, hleads, hdir, hlast⟩ := exists_leads_of_walk hwalk (by simp)
  have hlength := size_le_of_advance ⟨hname.ne_here, hname.ne_up⟩ (goesOn_of_walk hlast)
  refine ⟨dir, htext, hname, ⟨hfolder, hdir, links, hleads⟩, ?_⟩
  rw [admits, if_neg hnul, if_neg (not_lt.2 hsize), if_neg (not_lt.2 hlength)]

theorem NameAt.bounds (h : NameAt s path folder dir name) :
    '\x00' ∉ path.toList ∧ path.utf8ByteSize ≤ maxPathSize ∧ name.utf8ByteSize ≤ maxNameSize := by
  have hadmits := h.admits
  rw [Store.admits] at hadmits
  rw [h.text, String.toList_ofList, ← Text.byteSize_eq_utf8ByteSize]
  split at hadmits
  · cases hadmits
  split at hadmits
  · cases hadmits
  split at hadmits
  · cases hadmits
  next hnul hsize hlength => exact ⟨hnul, not_lt.1 hsize, not_lt.1 hlength⟩

/-- The parent of a path that ends with a name is its folder. -/
theorem eq_folder_of_parent? {path parent : Path} (hfolder : IsFolder folder) (hname : IsName name)
    (htext : path.text = String.ofList (folder ++ name.toList))
    (hparent : path.parent? = some parent) :
    ∃ front, folder = front ++ ['/'] ∧
      parent = ⟨if front = [] then "/" else String.ofList front⟩ := by
  have hchars : path.text.toList = folder ++ name.toList := by rw [htext, String.toList_ofList]
  obtain ⟨front, rfl⟩ : ∃ front, folder = front ++ ['/'] := by
    refine hfolder.resolve_left fun hnil => ?_
    obtain ⟨front, name', tail, hsplit, -⟩ := parent?_eq_some hparent
    refine hname.no_slash ?_
    rw [← List.nil_append name.toList, ← hnil, ← hchars, hsplit]
    simp
  have hparent' := parent?_of_split front (by simpa using hchars) (by simpa using hname.ne_empty)
    hname.no_slash
  exact ⟨front, rfl, Option.some.inj (hparent.symm.trans hparent')⟩

/-- Paths with one folder have one parent. -/
theorem parent?_beside {path path' parent : Path} {name' : String} (hfolder : IsFolder folder)
    (hname : IsName name) (htext : path.text = String.ofList (folder ++ name.toList))
    (hname' : IsName name') (htext' : path'.text = String.ofList (folder ++ name'.toList))
    (hparent : path.parent? = some parent) : path'.parent? = some parent := by
  obtain ⟨front, rfl, rfl⟩ := eq_folder_of_parent? hfolder hname htext hparent
  exact parent?_of_split front (by rw [htext', String.toList_ofList]; simp)
    (by simpa using hname'.ne_empty) hname'.no_slash

/-- The parent of a path that ends with a name leads to the directory of the name. -/
theorem NameAt.find?_parent {path parent : Path} (h : NameAt s path.text folder dir name)
    (hparent : path.parent? = some parent) : s.find? parent.text = .ok (dir, .directory) := by
  obtain ⟨hfolder, hdir, links, hleads⟩ := h.reaches
  obtain ⟨front, rfl, heq⟩ := eq_folder_of_parent? hfolder h.isName h.text hparent
  have htextParent : parent.text.toList = if front = [] then ['/'] else front := by
    rw [heq]
    split <;> simp
  have horigin : ∀ here, origin here parent.text.toList = origin here (front ++ ['/']) := by
    intro here
    rw [htextParent]
    cases front <;> simp [origin]
  have hnames : directoryNames parent.text.toList = directoryNames (front ++ ['/']) := by
    rw [htextParent]
    cases front with
    | nil => rfl
    | cons c cs =>
      rw [directoryNames_append]
      simp [directoryNames]
  obtain ⟨hnul, hsize, -⟩ := h.bounds
  obtain ⟨hnul', hne, hsize'⟩ := parent_bounds hparent hnul hsize
  refine find?_eq_ok_iff.2 ⟨locate?_eq_ok_iff.2 ⟨hnul', hne, hsize', ?_⟩, hdir⟩
  rw [horigin, names_eq, hnames]
  split
  · rw [walk_append hleads (by simp), walk_eq_of_advance_eq (advance_here hdir), walk_nil]
  · rw [List.append_nil, walk_of_leads hleads]

/-! ### Normalized paths -/

section Spells

variable {path : Path} {root : Root} {walked : List (List Char)} {p : List Char}

theorem names_of_spells (h : path.Spells root walked) :
    names path.text.toList = walked.reverse.map String.ofList := by
  rw [h.text]
  exact names_of_pieces root fun p hp => h.upsAndNames.isPiece p (List.mem_reverse.1 hp)

/-- A path that spells out a name last consists of a folder and the name. -/
theorem exists_folder_of_spells (h : path.Spells root (p :: walked)) (hp : IsNamePiece p) :
    IsName (String.ofList p) ∧ ∃ folder, IsFolder folder ∧
      path.text = String.ofList (folder ++ (String.ofList p).toList) := by
  obtain ⟨hne, hhere, hup, hslash⟩ := hp
  have htext := h.text
  rw [List.reverse_cons] at htext
  refine ⟨⟨?_, ?_, ?_, by rwa [String.toList_ofList]⟩, ?_⟩
  · rwa [← String.toList_inj.ne, String.toList_ofList]
  · rwa [← String.toList_inj.ne, String.toList_ofList]
  · rwa [← String.toList_inj.ne, String.toList_ofList]
  by_cases hnil : walked = []
  · subst hnil
    refine ⟨root.chars, ?_, by rw [← String.toList_inj]; simpa [joinPieces] using htext⟩
    cases root with
    | relative => exact .inl rfl
    | slash => exact .inr ⟨[], rfl⟩
    | share => exact .inr ⟨['/'], rfl⟩
  · rw [joinPieces_concat (by simpa using hnil)] at htext
    refine ⟨root.chars ++ joinPieces walked.reverse ++ ['/'], .inr ⟨_, rfl⟩, ?_⟩
    rw [← String.toList_inj, htext]
    simp

end Spells

/-- A path that does not end with a name leads to a directory, if it leads anywhere. -/
theorem IsTree.directory_of_getLast? (hs : s.IsTree)
    (hlast : ∀ x ∈ (names path.toList).getLast?, x = "." ∨ x = "..")
    (h : s.locate? follow path = .ok l) : s.node? l = some .directory := by
  obtain ⟨-, hne, -, hwalk⟩ := locate?_eq_ok_iff.1 h
  obtain hnil | ⟨ys, x, hnames⟩ := List.eq_nil_or_concat' (names path.toList)
  · rw [hnil, walk_nil, origin_of_names_eq_nil (by simpa using hne) hnil] at hwalk
    exact Except.ok.inj hwalk ▸ node?_nil s
  · rw [hnames] at hwalk hlast
    obtain ⟨links, dir, -, hdir, hend⟩ := exists_leads_of_walk hwalk (by simp)
    rcases hlast x (by simp) with rfl | rfl
    · rw [walk_eq_of_advance_eq (advance_here hdir), walk_nil] at hend
      exact Except.ok.inj hend ▸ hdir
    · rw [walk_eq_of_advance_eq (advance_up hdir), walk_nil] at hend
      rw [← Except.ok.inj hend]
      by_cases hroot : dir = []
      · exact hroot ▸ node?_nil s
      · exact hs.parent hdir hroot

/-! ### Directories that are made -/

/-- The store `s'` is `s` with directories made where nothing stood, at places of the path and of
its parents. -/
structure Grows (path : Path) (s s' : Store) : Prop where
  workingDirectory : s'.workingDirectory = s.workingDirectory
  isTree : s'.IsTree
  node : ∀ k, s'.node? k = s.node? k ∨ s.node? k = none ∧ s'.node? k = some .directory ∧
    ∃ q ∈ path.ancestors, ∃ folder dir name, NameAt s' q.text folder dir name ∧ k = dir ++ [name]

/-- The directory of the path is a new one with nothing in it. Behind the path nothing was found
before. -/
structure Fresh (path : Path) (s s' : Store) : Prop where
  place : ∃ folder dir name, NameAt s' path.text folder dir name ∧
    s'.node? (dir ++ [name]) = some .directory ∧ ∀ x, s'.node? (dir ++ [name] ++ [x]) = none
  lost : ∀ y ys, s.walk true maxLinks (origin s.workingDirectory path.text.toList)
    (names path.text.toList ++ y :: ys) = .error .notFound

section Grows

variable {path parent : Path}

theorem Grows.refl (path : Path) (hs : s.IsTree) : Grows path s s := ⟨rfl, hs, fun _ => .inl rfl⟩

theorem Grows.keepsWays (h : Grows path s s') : KeepsWays s s' where
  workingDirectory := h.workingDirectory
  directory {k} hk := by
    rcases h.node k with hsame | ⟨hnone, -⟩
    · rw [hsame, hk]
    · rw [hk] at hnone; cases hnone
  link {k target} hk := by
    rcases h.node k with hsame | ⟨hnone, -⟩
    · rw [hsame, hk]
    · rw [hk] at hnone; cases hnone

theorem Grows.node?_eq_none (h : Grows path s s') (hk : s'.node? k = none) : s.node? k = none := by
  rcases h.node k with hsame | ⟨hnone, -⟩
  · rw [← hsame, hk]
  · exact hnone

theorem Grows.trans (h : Grows path s s') (h' : Grows path s' s'') : Grows path s s'' where
  workingDirectory := h'.workingDirectory.trans h.workingDirectory
  isTree := h'.isTree
  node k := by
    rcases h'.node k with hsame' | ⟨hnone', hmade⟩
    · rcases h.node k with hsame | ⟨hnone, hk, q, hq, folder, dir, name, hname, hdir⟩
      · exact .inl (hsame'.trans hsame)
      · exact .inr ⟨hnone, hsame'.trans hk, q, hq, folder, dir, name, hname.mono h'.keepsWays, hdir⟩
    · exact .inr ⟨h.node?_eq_none hnone', hmade⟩

theorem Grows.of_parent (h : Grows parent s s') (hparent : path.parent? = some parent) :
    Grows path s s' := by
  refine ⟨h.workingDirectory, h.isTree, fun k => ?_⟩
  rcases h.node k with hsame | ⟨hnone, hk, q, hq, hmade⟩
  · exact .inl hsame
  · refine .inr ⟨hnone, hk, q, ?_, hmade⟩
    rw [ancestors_of_some hparent]
    exact List.mem_cons_of_mem _ hq

/-- A directory is made at the place of a path that ends with a name. -/
theorem grows_put (hs : s.IsTree) (hplace : NameAt s path.text folder dir name)
    (hnone : s.node? (dir ++ [name]) = none) :
    Grows path s (s.put (dir ++ [name]) .directory) := by
  obtain ⟨-, hdir, -⟩ := hplace.reaches
  have hne : dir ++ [name] ≠ [] := by simp
  have hkeeps : KeepsWays s (s.put (dir ++ [name]) .directory) := by
    refine ⟨rfl, fun {l} hl => ?_, fun {l target} hl => ?_⟩
    · rwa [node?_put_of_ne hne fun heq => by rw [heq, hnone] at hl; cases hl]
    · rwa [node?_put_of_ne hne fun heq => by rw [heq, hnone] at hl; cases hl]
  refine ⟨rfl, hs.put_node hdir hplace.isName hplace.bounds.2.2 (by simp [hnone]) _, fun k => ?_⟩
  by_cases hk : k = dir ++ [name]
  · subst hk
    exact .inr ⟨hnone, node?_put_self hne, path, mem_ancestors_self path, folder, dir, name,
      hplace.mono hkeeps, rfl⟩
  · exact .inl (node?_put_of_ne hne hk)

/-- The directory that was made is a new one. -/
theorem fresh_put (hs : s.IsTree) (hplace : NameAt s path.text folder dir name)
    (hnone : s.node? (dir ++ [name]) = none) :
    Fresh path s (s.put (dir ++ [name]) .directory) := by
  have hne : dir ++ [name] ≠ [] := by simp
  have hgrows := grows_put hs hplace hnone
  refine ⟨⟨folder, dir, name, hplace.mono hgrows.keepsWays, node?_put_self hne, fun x => ?_⟩,
    fun y ys => ?_⟩
  · rw [node?_put_of_ne hne (by simp)]
    cases hnode : s.node? (dir ++ [name] ++ [x]) with
    | none => rfl
    | some n =>
      have := hs.parent hnode (by simp)
      rw [List.dropLast_concat, hnone] at this
      cases this
  · obtain ⟨hfolder, hdir, links, hleads⟩ := hplace.reaches
    have hdots := And.intro hplace.isName.ne_here hplace.isName.ne_up
    have hadvance : s.advance true dir (name :: y :: ys) = .lost .notFound := by
      rw [advance_name hdir hdots hplace.bounds.2.2, hnone]
      exact if_neg (by simp)
    rw [hplace.text, String.toList_ofList, names_folder hfolder hplace.isName.ne_empty
        hplace.isName.no_slash, origin_folder hfolder hplace.isName, List.append_assoc,
      walk_append hleads (by simp)]
    cases links <;> rw [List.singleton_append, walk, hadvance]

/-- What stands in the directory that was made for the parent of a path is nothing. -/
theorem Fresh.node?_eq_none (h : Fresh parent s s') (hplace : NameAt s' path.text folder dir name)
    (hparent : path.parent? = some parent) (x : String) : s'.node? (dir ++ [x]) = none := by
  obtain ⟨folder', dir', name', hplace', hdirectory, hnone⟩ := h.place
  have hdir := (find?_eq_ok_iff.1 (hplace.find?_parent hparent)).1
  rw [hplace'.locate?_eq (.inr (by simp [hdirectory])), Except.ok.injEq] at hdir
  rw [← hdir]
  exact hnone x

end Grows

/-! ### All directories of a path -/

/-- The path is a root, or nothing, and steps up. -/
def Rises (path : Path) : Prop := ∀ x ∈ names path.text.toList, x = "." ∨ x = ".."

/-- What came of making the path a directory, together with its parents. -/
structure Makes (path : Path) (s : Store) (made : Store × Except Fault Unit) : Prop where
  grows : Grows path s made.1
  ok : made.2 = .ok () → ∃ d, made.1.find? path.text = .ok (d, .directory)
  error : made.2 ≠ .ok () → ∀ d, made.1.find? path.text ≠ .ok (d, .directory)
  fresh : made.2 = .ok () → made.1 = s ∨ Fresh path s made.1
  rises : Rises path → made.1 = s

section Makes

variable {path parent : Path} {root root' : Root} {walked : List (List Char)} {p : List Char}
  {fault : Fault} {above : List String}

theorem rises_or_name (h : path.Spells root (p :: walked)) : Rises path ∨ IsNamePiece p := by
  obtain hp | ⟨rfl, hall⟩ := h.upsAndNames.of_cons.2
  · exact .inr hp
  · refine .inl fun x hx => ?_
    rw [names_of_spells h] at hx
    obtain ⟨q, hq, rfl⟩ := List.mem_map.1 hx
    have hq : q = up := by
      rcases List.mem_cons.1 (List.mem_reverse.1 hq) with rfl | hq
      · rfl
      · exact hall q hq
    rw [hq]
    exact .inr rfl

theorem rises_of_parent (h : Rises path) (hpath : path.Spells root (p :: walked))
    (hspells : parent.Spells root' walked) : Rises parent := fun x hx => by
  rw [names_of_spells hspells] at hx
  refine h x ?_
  rw [names_of_spells hpath, List.reverse_cons, List.map_append]
  exact List.mem_append_left _ hx

theorem makeDirectory_eq_ok {path : String} (h : s.makeDirectory path = .ok s') :
    ∃ l, s.locate? false path = .ok l ∧ s.node? l = none ∧ s' = s.put l .directory := by
  unfold makeDirectory at h
  split at h
  · cases h
  · next l hl =>
    split at h
    · cases h
    · next hnone =>
      split at h
      · cases h
      · exact ⟨l, hl, hnone, (Except.ok.inj h).symm⟩

theorem hasDirectory_iff {path : String} :
    s.hasDirectory path = true ↔ ∃ d, s.find? path = .ok (d, .directory) := by
  unfold hasDirectory
  split
  · next d hfind => simp [hfind]
  · next hother =>
    simp only [Bool.false_eq_true, false_iff, not_exists]
    exact fun d hd => hother d hd

/-- A path that can be made a directory ends with a name, and not with a step up. -/
theorem nameAt_of_makeDirectory (h : path.Spells root walked) (hs : s.IsTree)
    (hmake : s.makeDirectory path.text = .ok s') :
    ¬Rises path ∧ ∃ folder dir name, NameAt s path.text folder dir name ∧
      s.node? (dir ++ [name]) = none ∧ s' = s.put (dir ++ [name]) .directory := by
  obtain ⟨l, hl, hnone, hput⟩ := makeDirectory_eq_ok hmake
  have hrises : ¬Rises path := fun hrises => by
    have := hs.directory_of_getLast? (fun x hx => hrises x (List.mem_of_getLast? hx)) hl
    rw [hnone] at this
    cases this
  refine ⟨hrises, ?_⟩
  cases walked with
  | nil => exact absurd (fun x hx => by simp [names_of_spells h] at hx) hrises
  | cons p walked =>
    obtain ⟨hname, folder, hfolder, htext⟩ :=
      exists_folder_of_spells h ((rises_or_name h).resolve_left hrises)
    obtain ⟨dir, hplace⟩ := nameAt_of_locate? htext hfolder hname hl
    obtain rfl : l = dir ++ [String.ofList p] :=
      Except.ok.inj (hl.symm.trans (hplace.locate?_eq (.inl rfl)))
    exact ⟨folder, dir, _, hplace, hnone, hput⟩

/-- The path is made a directory when its parents are there. -/
theorem makes_of_makeDirectory (h : path.Spells root walked) (hs : s.IsTree)
    (hmake : s.makeDirectory path.text = .ok s') :
    Makes path s (s', .ok ()) ∧ Fresh path s s' := by
  obtain ⟨hrises, folder, dir, name, hplace, hnone, rfl⟩ := nameAt_of_makeDirectory h hs hmake
  have hfresh := fresh_put hs hplace hnone
  obtain ⟨folder', dir', name', hplace', hdirectory, -⟩ := hfresh.place
  refine ⟨⟨grows_put hs hplace hnone, fun _ => ⟨dir' ++ [name'], ?_⟩, by simp,
    fun _ => .inr hfresh, fun h => absurd h hrises⟩, hfresh⟩
  exact find?_eq_ok_iff.2 ⟨hplace'.locate?_eq (.inr (by simp [hdirectory])), hdirectory⟩

/-- Nothing more is made, and the path leads to a directory or not. -/
theorem makes_of_error (hgrows : Grows path s s') (hrises : Rises path → s' = s)
    (hfresh : (∃ d, s'.find? path.text = .ok (d, .directory)) → s' = s ∨ Fresh path s s') :
    Makes path s (s', if s'.hasDirectory path.text then .ok () else .error fault) := by
  by_cases hhas : s'.hasDirectory path.text = true
  · have hfind := hasDirectory_iff.1 hhas
    exact ⟨hgrows, fun _ => hfind, by simp [hhas], fun _ => hfresh hfind, hrises⟩
  · exact ⟨hgrows, by simp [hhas], fun _ d hd => hhas (hasDirectory_iff.2 ⟨d, hd⟩), by simp [hhas],
      hrises⟩

/-- The parents are not looked at if it is not that something is missing. -/
theorem makes_of_fault_ne (hs : s.IsTree) (hmake : s.makeDirectory path.text = .error fault)
    (hfault : fault ≠ .notFound) : Makes path s (s.makeDirectories (path.text :: above)) := by
  have hmakes : s.makeDirectories (path.text :: above) =
      (s, if s.hasDirectory path.text then .ok () else .error fault) := by
    cases fault <;> first | exact absurd rfl hfault | simp only [makeDirectories, hmake]
  rw [hmakes]
  exact makes_of_error (.refl path hs) (fun _ => rfl) fun _ => .inl rfl

/-- Behind a path nothing is found when nothing is found behind its parent. -/
theorem Fresh.lost_of_parent (h : Fresh parent s s') (hpath : path.Spells root (p :: walked))
    (hparent : path.parent? = some parent) (hspells : parent.Spells root' walked) (y : String)
    (ys : List String) :
    s.walk true maxLinks (origin s.workingDirectory path.text.toList)
      (names path.text.toList ++ y :: ys) = .error .notFound := by
  obtain ⟨-, -, -, -, -, horigin⟩ := names_parent hparent
  have hlost := h.lost (String.ofList p) (y :: ys)
  rw [names_of_spells hspells, horigin] at hlost
  rw [names_of_spells hpath]
  simpa using hlost

/-- A name in a new directory does not lead to a directory. -/
theorem Fresh.find?_ne_directory (h : Fresh parent s s') (hpath : path.Spells root (p :: walked))
    (hparent : path.parent? = some parent) (hp : IsNamePiece p) (d : Location) :
    s'.find? path.text ≠ .ok (d, .directory) := by
  intro hfind
  obtain ⟨hlocate, hd⟩ := find?_eq_ok_iff.1 hfind
  obtain ⟨hname, folder, hfolder, htext⟩ := exists_folder_of_spells hpath hp
  obtain ⟨dir, hplace⟩ := nameAt_of_locate? htext hfolder hname hlocate
  have hnone := h.node?_eq_none hplace hparent (String.ofList p)
  rw [hplace.locate?_eq (.inr (by simp [hnone])), Except.ok.injEq] at hlocate
  rw [← hlocate, hnone] at hd
  cases hd

/-- The parents are made when something is missing, and then the path. -/
theorem makes_of_parent (h : path.Spells root (p :: walked))
    (hparent : path.parent? = some parent) (hspells : parent.Spells root' walked)
    (hmake : s.makeDirectory path.text = .error .notFound)
    (habove : Makes parent s (s.makeDirectories above)) :
    Makes path s (s.makeDirectories (path.text :: above)) := by
  have hgrows := habove.grows.of_parent hparent
  have hrises : Rises path → (s.makeDirectories above).1 = s := fun hrises =>
    habove.rises (rises_of_parent hrises h hspells)
  rw [makeDirectories, hmake]
  generalize s.makeDirectories above = made at habove hgrows hrises ⊢
  obtain ⟨s₁, result⟩ := made
  cases result with
  | error fault =>
    refine ⟨hgrows, by simp, fun _ d hd => ?_, by simp, hrises⟩
    obtain ⟨dir, hdir, hlocate, -⟩ := locate?_parent (find?_eq_ok_iff.1 hd).1 hparent
    exact habove.error (by simp) dir (find?_eq_ok_iff.2 ⟨hlocate, hdir⟩)
  | ok _ =>
    simp only
    cases hmake' : s₁.makeDirectory path.text with
    | ok s₂ =>
      obtain ⟨hnext, hfresh'⟩ := makes_of_makeDirectory h hgrows.isTree hmake'
      refine ⟨hgrows.trans hnext.grows, hnext.ok, hnext.error, fun _ => .inr ?_,
        fun hup => (hnext.rises hup).trans (hrises hup)⟩
      obtain rfl | hfresh := habove.fresh rfl
      · exact hfresh'
      · exact ⟨hfresh'.place, hfresh.lost_of_parent h hparent hspells⟩
    | error fault =>
      refine makes_of_error hgrows hrises ?_
      rintro ⟨d, hd⟩
      left
      obtain heq | hfresh := habove.fresh rfl
      · exact heq
      · obtain hup | hp := rises_or_name h
        · exact hrises hup
        · exact absurd hd (hfresh.find?_ne_directory h hparent hp d)

/-- A path without a parent is made alone. -/
theorem makes_of_none (hs : s.IsTree) (h : path.Spells root walked) :
    Makes path s (s.makeDirectories [path.text]) := by
  cases hmake : s.makeDirectory path.text with
  | ok s' =>
    simp only [makeDirectories, hmake]
    exact (makes_of_makeDirectory h hs hmake).1
  | error fault =>
    have hmakes : s.makeDirectories [path.text] =
        (s, if s.hasDirectory path.text then .ok () else .error fault) := by
      cases fault <;> simp only [makeDirectories, hmake]
    rw [hmakes]
    exact makes_of_error (.refl path hs) (fun _ => rfl) fun _ => .inl rfl

/-- What comes of making a path in normal form a directory, in a tree. -/
theorem makeDirectories_spec (hs : s.IsTree) (h : path.Spells root walked) :
    Makes path s (s.makeDirectories (path.ancestors.map (·.text))) := by
  induction walked generalizing path root with
  | nil =>
    rw [ancestors_of_none h.parent?_nil]
    exact makes_of_none hs h
  | cons p walked ih =>
    obtain ⟨hnone, rfl⟩ | ⟨parent, root', hparent, hspells⟩ := h.parent?_cons
    · rw [ancestors_of_none hnone]
      exact makes_of_none hs h
    rw [ancestors_of_some hparent, List.map_cons]
    cases hmake : s.makeDirectory path.text with
    | ok s' =>
      simp only [makeDirectories, hmake]
      exact (makes_of_makeDirectory h hs hmake).1
    | error fault =>
      by_cases hfault : fault = .notFound
      · subst hfault
        exact makes_of_parent h hparent hspells hmake (ih hspells)
      · exact makes_of_fault_ne hs hmake hfault

end Makes

end BlockEdit.Store
