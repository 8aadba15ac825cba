import BlockEdit.Proofs.Store.Beside
import Mathlib.Data.List.Basic

/-!
# Changes to files alone

Where a path leads depends on directories and links, not on files: stores with the same ones
(`SameWays`) are walked alike, so long as the walk arrives (`SameWays.locate?_eq_ok_iff`).

`Alters places s s'` says that files at some places were made, changed or removed, and that nothing
else happened. It is what opening, changing and removing a file come to; a tree stays one, because a
path that leads to nothing leads into a directory (`IsTree.exists_place`).
-/

namespace BlockEdit.Store

variable {s s' s'' : Store} {follow : Bool} {links links' : Nat} {here dir l : Location}
  {xs rest : List String} {name path : String} {n : FileNode} {f g : File}

/-! ### Stores with the same ways -/

/-- The two stores are seen from one directory, have the same directories and links, and refuse the
same. -/
structure SameWays (s s' : Store) : Prop where
  workingDirectory : s'.workingDirectory = s.workingDirectory
  refuses : s'.refuses = s.refuses
  directory : ∀ l, s'.node? l = some .directory ↔ s.node? l = some .directory
  link : ∀ l target, s'.node? l = some (.link target) ↔ s.node? l = some (.link target)

theorem SameWays.refl (s : Store) : SameWays s s := ⟨rfl, rfl, fun _ => .rfl, fun _ _ => .rfl⟩

theorem SameWays.symm (h : SameWays s s') : SameWays s' s :=
  ⟨h.workingDirectory.symm, h.refuses.symm, fun l => (h.directory l).symm,
    fun l t => (h.link l t).symm⟩

theorem SameWays.trans (h : SameWays s s') (h' : SameWays s' s'') : SameWays s s'' where
  workingDirectory := h'.workingDirectory.trans h.workingDirectory
  refuses := h'.refuses.trans h.refuses
  directory l := (h'.directory l).trans (h.directory l)
  link l t := (h'.link l t).trans (h.link l t)

theorem SameWays.keepsWays (h : SameWays s s') : KeepsWays s s' :=
  ⟨h.workingDirectory, (h.directory _).2, (h.link _ _).2⟩

theorem SameWays.fileOrNone_iff (h : SameWays s s') : s'.FileOrNone l ↔ s.FileOrNone l := by
  simp only [FileOrNone, ne_eq, h.directory, h.link]

/-- A file, or a place where nothing stands, is where a walk can only end. -/
theorem advance_fileOrNone (hhere : s.node? here = some .directory)
    (hdots : name ≠ "." ∧ name ≠ "..") (hsize : name.utf8ByteSize ≤ maxNameSize)
    (h : s.FileOrNone (here ++ [name])) :
    s.advance follow here [name] = .arrived (here ++ [name]) := by
  rw [advance_name hhere hdots hsize]
  cases hnode : s.node? (here ++ [name]) with
  | none => exact if_pos rfl
  | some n =>
    cases n with
    | file f => rfl
    | directory => exact absurd hnode h.1
    | link target => exact absurd hnode (h.2 target)

theorem eq_nil_of_advance_fileOrNone (hdots : name ≠ "." ∧ name ≠ "..")
    (h : s.FileOrNone (here ++ [name])) (hgoes : (s.advance follow here (name :: rest)).GoesOn) :
    rest = [] := by
  have hhere := directory_of_advance hgoes
  have hsize := size_le_of_advance hdots hgoes
  by_contra hrest
  rw [advance_name hhere hdots hsize] at hgoes
  cases hnode : s.node? (here ++ [name]) with
  | none =>
    simp only [hnode, if_neg hrest] at hgoes
    exact hgoes
  | some n =>
    cases n with
    | file f =>
      obtain ⟨x, xs, rfl⟩ := List.exists_cons_of_ne_nil hrest
      simp only [hnode] at hgoes
      have := directory_of_advance hgoes
      rw [hnode] at this
      cases this
    | directory => exact h.1 hnode
    | link target => exact h.2 target hnode

theorem SameWays.advance_eq (hs : SameWays s s') (h : (s.advance follow here xs).GoesOn) :
    s'.advance follow here xs = s.advance follow here xs := by
  induction xs generalizing here with
  | nil => rfl
  | cons name rest ih =>
    have hhere := directory_of_advance h
    have hhere' := (hs.directory here).2 hhere
    by_cases hdot : name = "."
    · subst hdot
      rw [advance_here hhere] at h ⊢
      rw [advance_here hhere', ih h]
    by_cases hup : name = ".."
    · subst hup
      rw [advance_up hhere] at h ⊢
      rw [advance_up hhere', ih h]
    have hsize := size_le_of_advance ⟨hdot, hup⟩ h
    by_cases hfile : s.FileOrNone (here ++ [name])
    · obtain rfl := eq_nil_of_advance_fileOrNone ⟨hdot, hup⟩ hfile h
      rw [advance_fileOrNone hhere ⟨hdot, hup⟩ hsize hfile,
        advance_fileOrNone hhere' ⟨hdot, hup⟩ hsize (hs.fileOrNone_iff.2 hfile)]
    rw [advance_name hhere ⟨hdot, hup⟩ hsize] at h ⊢
    rw [advance_name hhere' ⟨hdot, hup⟩ hsize]
    cases hnode : s.node? (here ++ [name]) with
    | none => exact absurd (fileOrNone_of_none hnode) hfile
    | some n =>
      simp only [hnode] at h
      cases n with
      | file f => exact absurd (fileOrNone_of_file hnode) hfile
      | directory =>
        simp only [(hs.directory _).2 hnode]
        exact ih h
      | link target => simp only [(hs.link _ _).2 hnode]

theorem SameWays.walk_eq_ok (hs : SameWays s s') (h : s.walk follow links here xs = .ok l) :
    s'.walk follow links here xs = .ok l := by
  have hadvance := hs.advance_eq (goesOn_of_walk h)
  induction links generalizing here xs with
  | zero =>
    rw [walk] at h ⊢
    rwa [hadvance]
  | succ links ih =>
    rw [walk] at h ⊢
    rw [hadvance]
    cases hwalk : s.advance follow here xs with
    | arrived l' => rwa [hwalk] at h
    | detour here' target rest =>
      rw [hwalk] at h
      exact ih h (hs.advance_eq (goesOn_of_walk h))
    | lost fault => rwa [hwalk] at h

/-- A path leads to the same place in stores with the same ways. -/
theorem SameWays.locate?_eq_ok_iff (hs : SameWays s s') :
    s'.locate? follow path = .ok l ↔ s.locate? follow path = .ok l := by
  have h : ∀ {s s'}, SameWays s s' → s.locate? follow path = .ok l →
      s'.locate? follow path = .ok l := fun hs h => by
    obtain ⟨hnul, hne, hsize, hwalk⟩ := Store.locate?_eq_ok_iff.1 h
    refine Store.locate?_eq_ok_iff.2 ⟨hnul, hne, hsize, ?_⟩
    rw [hs.workingDirectory]
    exact hs.walk_eq_ok hwalk
  exact ⟨h hs.symm, h hs⟩

/-! ### Places where nothing stands yet -/

theorem Leads.links_le (h : Leads s links here xs links' dir) : links' ≤ links := by
  induction h with
  | arrived => exact le_rfl
  | stay _ _ ih => exact ih
  | rise _ _ ih => exact ih
  | enter _ _ _ _ _ ih => exact ih
  | follow _ _ _ _ _ ih => exact ih.trans (Nat.le_succ _)

theorem isPiece_of_mem_names {path : List Char} (h : name ∈ names path) :
    name ≠ "" ∧ '/' ∉ name.toList := by
  have hnamed : ∀ x ∈ directoryNames path, x ≠ "" ∧ '/' ∉ x.toList := by
    intro x hx
    obtain ⟨p, hp, rfl⟩ := List.mem_map.1 hx
    obtain ⟨hp, hne⟩ := List.mem_filter.1 hp
    refine ⟨fun h => ?_, ?_⟩
    · have := congrArg String.toList h
      simp_all
    · rw [String.toList_ofList]
      exact Path.slash_not_mem_of_mem_pieces hp
  rw [names_eq, List.mem_append] at h
  rcases h with h | h
  · exact hnamed name h
  · split at h
    · rw [List.mem_singleton.1 h]
      decide
    · cases h

/-- A walk ends in a directory, or with a name in one. If links are followed, it does not end at a
link. -/
theorem IsTree.place_of_walk (hs : s.IsTree) (hxs : ∀ x ∈ xs, x ≠ "" ∧ '/' ∉ x.toList)
    (hhere : xs = [] → s.node? here = some .directory) (h : s.walk follow links here xs = .ok l) :
    s.node? l = some .directory ∨ ∃ dir name, l = dir ++ [name] ∧
      s.node? dir = some .directory ∧ IsName name ∧ name.utf8ByteSize ≤ maxNameSize ∧
      (follow = true → ∀ target, s.node? l ≠ some (.link target)) := by
  -- The last name may be a link, whose target is walked with fewer links left.
  induction links using Nat.strongRecOn generalizing here xs with
  | ind links ih =>
    obtain rfl | ⟨ys, x, rfl⟩ := List.eq_nil_or_concat' xs
    · rw [walk_nil] at h
      exact .inl (Except.ok.inj h ▸ hhere rfl)
    obtain ⟨links', dir, hleads, hdir, hwalk⟩ := exists_leads_of_walk h (by simp)
    by_cases hdot : x = "."
    · subst hdot
      rw [walk_eq_of_advance_eq (advance_here hdir), walk_nil] at hwalk
      exact .inl (Except.ok.inj hwalk ▸ hdir)
    by_cases hup : x = ".."
    · subst hup
      rw [walk_eq_of_advance_eq (advance_up hdir), walk_nil] at hwalk
      rw [← Except.ok.inj hwalk]
      by_cases hnil : dir = []
      · exact .inl (by rw [hnil]; rfl)
      · exact .inl (hs.parent hdir hnil)
    have hsize := size_le_of_advance ⟨hdot, hup⟩ (goesOn_of_walk hwalk)
    by_cases hlink : follow = false ∨ ∀ target, s.node? (dir ++ [x]) ≠ some (.link target)
    · rw [walk_singleton hdir ⟨hdot, hup⟩ hsize hlink] at hwalk
      obtain ⟨hne, hslash⟩ := hxs x (by simp)
      obtain rfl := Except.ok.inj hwalk
      refine .inr ⟨dir, x, rfl, hdir, ⟨hne, hdot, hup, hslash⟩, hsize, fun hfollow => ?_⟩
      exact hlink.resolve_left (by simp [hfollow])
    · simp only [not_or, Bool.not_eq_false, not_forall, not_not] at hlink
      obtain ⟨hfollow, target, hnode⟩ := hlink
      obtain _ | links' := links'
      · have hadvance : s.advance follow dir [x] = .detour dir target [] := by
          rw [advance_name hdir ⟨hdot, hup⟩ hsize, hnode]
          simp [hfollow]
        rw [walk, hadvance] at hwalk
        cases hwalk
      · rw [walk_name_link hdir ⟨hdot, hup⟩ hsize hnode (Or.inr hfollow), List.append_nil] at hwalk
        refine ih links' hleads.links_le (fun y hy => isPiece_of_mem_names hy) (fun _ => ?_) hwalk
        rw [origin]
        split
        · rfl
        · exact hdir

/-- A path without names leads from the root. -/
theorem origin_of_names_eq_nil {cs : List Char} (hne : cs ≠ []) (h : names cs = []) :
    origin here cs = [] := by
  obtain ⟨c, cs, rfl⟩ := List.exists_cons_of_ne_nil hne
  by_cases hc : c = '/'
  · subst hc; rfl
  · obtain ⟨p, ps, -, hpieces⟩ := Path.pieces_cons hc cs
    rw [names_eq, List.append_eq_nil_iff] at h
    simp [directoryNames, Path.named, hpieces] at h

/-- A path leads to a directory, or to a name in one. If links are followed, it does not lead to a
link. -/
theorem IsTree.place_of_locate? (hs : s.IsTree) (h : s.locate? follow path = .ok l) :
    s.node? l = some .directory ∨ ∃ dir name, l = dir ++ [name] ∧
      s.node? dir = some .directory ∧ IsName name ∧ name.utf8ByteSize ≤ maxNameSize ∧
      (follow = true → ∀ target, s.node? l ≠ some (.link target)) := by
  obtain ⟨-, hne, -, hwalk⟩ := locate?_eq_ok_iff.1 h
  refine hs.place_of_walk (fun x hx => isPiece_of_mem_names hx) (fun hnames => ?_) hwalk
  rw [origin_of_names_eq_nil (by simpa using hne) hnames]
  exact node?_nil s

/-- A path that leads to nothing leads to a name in a directory. -/
theorem IsTree.exists_place (hs : s.IsTree) (h : s.locate? follow path = .ok l)
    (hl : s.node? l = none) :
    ∃ dir name, l = dir ++ [name] ∧ s.node? dir = some .directory ∧ IsName name ∧
      name.utf8ByteSize ≤ maxNameSize := by
  obtain hdirectory | ⟨dir, name, hplace, hdir, hname, hsize, -⟩ := hs.place_of_locate? h
  · rw [hl] at hdirectory
    cases hdirectory
  · exact ⟨dir, name, hplace, hdir, hname, hsize⟩

theorem IsTree.ne_link_of_locate? (hs : s.IsTree) (h : s.locate? true path = .ok l)
    (target : String) : s.node? l ≠ some (.link target) := by
  obtain hdirectory | ⟨dir, name, -, -, -, -, hlink⟩ := hs.place_of_locate? h
  · simp [hdirectory]
  · exact hlink rfl target

/-- A path that does not lead to a link leads to the same place when links are followed. -/
theorem locate?_true_of_false (h : s.locate? false path = .ok l)
    (hlink : ∀ target, s.node? l ≠ some (.link target)) : s.locate? true path = .ok l := by
  obtain ⟨hnul, hne, hsize, hwalk⟩ := locate?_eq_ok_iff.1 h
  refine locate?_eq_ok_iff.2 ⟨hnul, hne, hsize, ?_⟩
  obtain hnil | ⟨ys, x, hnames⟩ := List.eq_nil_or_concat' (names path.toList)
  · rwa [hnil, walk_nil] at hwalk ⊢
  rw [hnames] at hwalk ⊢
  obtain ⟨links, dir, hleads, hdir, hlast⟩ := exists_leads_of_walk hwalk (by simp)
  rw [walk_append hleads (by simp), ← hlast]
  -- Only the last step could differ, at a link.
  by_cases hdot : x = "."
  · subst hdot
    rw [walk_eq_of_advance_eq (advance_here hdir), walk_eq_of_advance_eq (advance_here hdir),
      walk_nil, walk_nil]
  by_cases hup : x = ".."
  · subst hup
    rw [walk_eq_of_advance_eq (advance_up hdir), walk_eq_of_advance_eq (advance_up hdir),
      walk_nil, walk_nil]
  have hlength := size_le_of_advance ⟨hdot, hup⟩ (goesOn_of_walk hlast)
  rw [walk_singleton hdir ⟨hdot, hup⟩ hlength (.inl rfl), Except.ok.injEq] at hlast
  rw [walk_singleton hdir ⟨hdot, hup⟩ hlength (.inl rfl),
    walk_singleton hdir ⟨hdot, hup⟩ hlength (.inr (hlast ▸ hlink))]

/-! ### Changes at some places -/

/-- Files at some places were made, changed or removed, and nothing else has happened. -/
structure Alters (places : Set Location) (s s' : Store) : Prop where
  sameWays : SameWays s s'
  isTree : s.IsTree → s'.IsTree
  frame : ∀ l ∉ places, s'.node? l = s.node? l

variable {places places' : Set Location}

theorem Alters.refl (places : Set Location) (s : Store) : Alters places s s :=
  ⟨.refl s, id, fun _ _ => rfl⟩

theorem Alters.trans (h : Alters places s s') (h' : Alters places s' s'') :
    Alters places s s'' where
  sameWays := h.sameWays.trans h'.sameWays
  isTree hs := h'.isTree (h.isTree hs)
  frame l hl := (h'.frame l hl).trans (h.frame l hl)

theorem Alters.mono (h : Alters places s s') (hsub : ∀ l ∈ places, l ∈ places') :
    Alters places' s s' :=
  ⟨h.sameWays, h.isTree, fun l hl => h.frame l fun hmem => hl (hsub l hmem)⟩

/-- A change at one place is one at several places. -/
theorem Alters.of_mem (h : Alters {l} s s') (hl : l ∈ places) : Alters places s s' :=
  h.mono fun _ hmem => hmem ▸ hl

theorem sameWays_put (h : s.FileOrNone l) : SameWays s (s.put l (.file f)) where
  workingDirectory := rfl
  refuses := rfl
  directory l' := by
    by_cases hne : l' = l
    · subst hne
      simp [node?_put_self h.ne_nil, h.1]
    · rw [node?_put_of_ne h.ne_nil hne]
  link l' target := by
    by_cases hne : l' = l
    · subst hne
      simp [node?_put_self h.ne_nil, h.2 target]
    · rw [node?_put_of_ne h.ne_nil hne]

theorem sameWays_erase (h : s.FileOrNone l) : SameWays s (s.erase l) where
  workingDirectory := rfl
  refuses := rfl
  directory l' := by
    rw [node?_erase s h.ne_nil]
    split
    · next heq => simp [heq, h.1]
    · rfl
  link l' target := by
    rw [node?_erase s h.ne_nil]
    split
    · next heq => simp [heq, h.2 target]
    · rfl

/-- A file is put in the place of one that a path leads to, or where a path leads to nothing. -/
theorem alters_put (hpath : s.locate? follow path = .ok l) (h : s.FileOrNone l) :
    Alters {l} s (s.put l (.file f)) where
  sameWays := sameWays_put h
  isTree hs := by
    obtain ⟨dir, name, rfl, hdir, hname, hsize⟩ : ∃ dir name, l = dir ++ [name] ∧
        s.node? dir = some .directory ∧ IsName name ∧ name.utf8ByteSize ≤ maxNameSize := by
      cases hnode : s.node? l with
      | none => exact hs.exists_place hpath hnode
      | some n =>
        obtain ⟨dir, name, rfl⟩ := (List.eq_nil_or_concat' l).resolve_left h.ne_nil
        obtain ⟨hname, hsize⟩ := hs.name hnode name (by simp)
        exact ⟨dir, name, rfl, by simpa using hs.parent hnode (by simp), hname, hsize⟩
    exact hs.put hdir hname hsize h
  frame l' hl' := node?_put_of_ne h.ne_nil hl'

theorem alters_erase (h : s.FileOrNone l) : Alters {l} s (s.erase l) where
  sameWays := sameWays_erase h
  isTree hs := by
    have hstood : ∀ {l' n}, (s.erase l).node? l' = some n → s.node? l' = some n := by
      intro l' n hnode
      rw [node?_erase s h.ne_nil] at hnode
      split at hnode
      · cases hnode
      · exact hnode
    exact ⟨fun hnode hne => ((sameWays_erase h).directory _).2 (hs.parent (hstood hnode) hne),
      fun hnode => hs.name (hstood hnode)⟩
  frame l' hl' := (node?_erase s h.ne_nil l').trans (if_neg hl')

/-! ### Opening, changing and removing files -/

theorem alters_openFile (h : s.openFile path = .ok (s', l, f)) :
    s.locate? true path = .ok l ∧ Alters {l} s s' ∧ s'.node? l = some (.file f) := by
  unfold openFile at h
  split at h
  · cases h
  · next l' hlocate =>
    split at h
    · next file hnode =>
      cases h
      exact ⟨hlocate, .refl _ s, hnode⟩
    · cases h
    · next hnode =>
      cases h
      have hfile := fileOrNone_of_none hnode
      exact ⟨hlocate, alters_put hlocate hfile, node?_put_self hfile.ne_nil⟩

theorem alters_changeFile {change : File → File} (h : s.changeFile path change = .ok s') :
    ∃ l f, s.locate? true path = .ok l ∧ s.node? l = some (.file f) ∧ Alters {l} s s' ∧
      s'.node? l = some (.file (change f)) := by
  unfold changeFile at h
  split at h
  · cases h
  · next l file hfind =>
    cases h
    obtain ⟨hlocate, hnode⟩ := find?_eq_ok_iff.1 hfind
    have hfile := fileOrNone_of_file hnode
    exact ⟨l, file, hlocate, hnode, alters_put hlocate hfile, node?_put_self hfile.ne_nil⟩
  · cases h

/-- What is moved stands in the new place, where there was no directory, and no longer in the old
one. -/
theorem rename_eq_ok {source target : String} (h : s.rename source target = .ok s') :
    ∃ old new n, s.locate? false source = .ok old ∧ s.locate? false target = .ok new ∧
      s.node? old = some n ∧ s.node? new ≠ some .directory ∧
      (new = old ∧ s' = s ∨ new ≠ old ∧ s' = (s.erase old).put new n) := by
  unfold rename at h
  cases hold : s.locate? false source with
  | error fault => simp [hold] at h
  | ok old =>
    cases hnew : s.locate? false target with
    | error fault => simp [hold, hnew] at h
    | ok new =>
      cases hnode : s.node? old with
      | none => simp [hold, hnew, hnode] at h
      | some n =>
        simp only [hold, hnew, hnode] at h
        split at h
        · cases h
        split at h
        · cases h
        next hdirectory =>
        refine ⟨old, new, n, rfl, rfl, hnode, hdirectory, ?_⟩
        split at h
        · next heq => cases h; exact .inl ⟨heq, rfl⟩
        · next hne => cases h; exact .inr ⟨hne, rfl⟩

end BlockEdit.Store
