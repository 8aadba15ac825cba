import BlockEdit.Proofs.Path.Pieces
import BlockEdit.Proofs.Store.Nodes

/-!
# Ways through a store

A walk along a path first goes from directory to directory, through links where there are any, and
then takes one last step, which alone may lead to something else or to nothing. `Leads` is that
first part: by it, every path that ends with one more name behind the same directory is walked alike
(`walk_append`), and a walk that arrives has such a first part (`exists_leads_of_walk`).

Directories and links are all that it depends on, so it is there in every store that keeps them
(`Leads.mono`).
-/

namespace BlockEdit.Store

/-- The names lead from one place into the directory `dir`, and `links'` of the links that may be
met are left then. -/
inductive Leads (s : Store) : (links : Nat) → Location → List String → (links' : Nat) →
    (dir : Location) → Prop
  | arrived {links here} : Leads s links here [] links here
  | stay {links here rest links' dir} (hhere : s.node? here = some .directory)
      (h : Leads s links here rest links' dir) : Leads s links here ("." :: rest) links' dir
  | rise {links here rest links' dir} (hhere : s.node? here = some .directory)
      (h : Leads s links here.dropLast rest links' dir) :
      Leads s links here (".." :: rest) links' dir
  | enter {links here name rest links' dir} (hhere : s.node? here = some .directory)
      (hdots : name ≠ "." ∧ name ≠ "..") (hsize : name.utf8ByteSize ≤ maxNameSize)
      (hname : s.node? (here ++ [name]) = some .directory)
      (h : Leads s links (here ++ [name]) rest links' dir) :
      Leads s links here (name :: rest) links' dir
  | follow {links here name target rest links' dir} (hhere : s.node? here = some .directory)
      (hdots : name ≠ "." ∧ name ≠ "..") (hsize : name.utf8ByteSize ≤ maxNameSize)
      (hname : s.node? (here ++ [name]) = some (.link target))
      (h : Leads s links (origin here target.toList) (names target.toList ++ rest) links' dir) :
      Leads s (links + 1) here (name :: rest) links' dir

variable {s s' : Store} {follow : Bool} {links links' : Nat} {here dir l : Location}
  {name target : String} {rest xs ys : List String}

theorem Leads.mono (hs : KeepsWays s s') (h : Leads s links here xs links' dir) :
    Leads s' links here xs links' dir := by
  induction h with
  | arrived => exact .arrived
  | stay hhere _ ih => exact .stay (hs.directory hhere) ih
  | rise hhere _ ih => exact .rise (hs.directory hhere) ih
  | enter hhere hdots hsize hname _ ih =>
    exact .enter (hs.directory hhere) hdots hsize (hs.directory hname) ih
  | follow hhere hdots hsize hname _ ih =>
    exact .follow (hs.directory hhere) hdots hsize (hs.link hname) ih

/-! ### One step of a walk -/

theorem advance_here (hhere : s.node? here = some .directory) :
    s.advance follow here ("." :: rest) = s.advance follow here rest := by
  rw [advance, hhere]
  rfl

theorem advance_up (hhere : s.node? here = some .directory) :
    s.advance follow here (".." :: rest) = s.advance follow here.dropLast rest := by
  rw [advance, hhere]
  rfl

theorem advance_name (hhere : s.node? here = some .directory) (hdots : name ≠ "." ∧ name ≠ "..")
    (hsize : name.utf8ByteSize ≤ maxNameSize) :
    s.advance follow here (name :: rest) =
      match s.node? (here ++ [name]) with
      | some (.link target) =>
        if rest = [] ∧ follow = false then .arrived (here ++ [name]) else .detour here target rest
      | some _ => s.advance follow (here ++ [name]) rest
      | none => if rest = [] then .arrived (here ++ [name]) else .lost .notFound := by
  rw [advance, hhere]
  cases s.node? (here ++ [name]) with
  | none => simp only [if_neg hdots.1, if_neg hdots.2, if_neg (Nat.not_lt.2 hsize)]
  | some n =>
    cases n <;> simp only [if_neg hdots.1, if_neg hdots.2, if_neg (Nat.not_lt.2 hsize)]

theorem advance_tooLong (hhere : s.node? here = some .directory)
    (hdots : name ≠ "." ∧ name ≠ "..") (hsize : maxNameSize < name.utf8ByteSize) :
    s.advance follow here (name :: rest) = .lost .nameTooLong := by
  rw [advance, hhere]
  simp only [if_neg hdots.1, if_neg hdots.2, if_pos hsize]

/-- A walk goes on as it would from the place to which its next step leads. -/
theorem walk_eq_of_advance_eq {here' : Location} {xs' : List String}
    (h : s.advance follow here xs = s.advance follow here' xs') :
    s.walk follow links here xs = s.walk follow links here' xs' := by
  cases links <;> rw [walk, walk, h]

@[simp] theorem walk_nil : s.walk follow links here [] = .ok here := by
  cases links <;> rw [walk] <;> rfl

theorem walk_name_directory (hhere : s.node? here = some .directory)
    (hdots : name ≠ "." ∧ name ≠ "..") (hsize : name.utf8ByteSize ≤ maxNameSize)
    (hname : s.node? (here ++ [name]) = some .directory) :
    s.walk follow links here (name :: rest) = s.walk follow links (here ++ [name]) rest := by
  refine walk_eq_of_advance_eq ?_
  rw [advance_name hhere hdots hsize, hname]

theorem walk_name_link (hhere : s.node? here = some .directory)
    (hdots : name ≠ "." ∧ name ≠ "..") (hsize : name.utf8ByteSize ≤ maxNameSize)
    (hname : s.node? (here ++ [name]) = some (.link target))
    (hfollow : rest ≠ [] ∨ follow = true) :
    s.walk follow (links + 1) here (name :: rest) =
      s.walk follow links (origin here target.toList) (names target.toList ++ rest) := by
  have hadvance : s.advance follow here (name :: rest) = .detour here target rest := by
    rw [advance_name hhere hdots hsize, hname]
    refine if_neg ?_
    rintro ⟨hrest, hf⟩
    rcases hfollow with h | h
    · exact h hrest
    · exact absurd (h.symm.trans hf) (by decide)
  rw [walk, hadvance]

/-- A last step to a name that is not a link, or at which links are not followed. -/
theorem walk_singleton (hdir : s.node? dir = some .directory) (hdots : name ≠ "." ∧ name ≠ "..")
    (hsize : name.utf8ByteSize ≤ maxNameSize)
    (hlink : follow = false ∨ ∀ target, s.node? (dir ++ [name]) ≠ some (.link target)) :
    s.walk follow links dir [name] = .ok (dir ++ [name]) := by
  have hadvance : s.advance follow dir [name] = .arrived (dir ++ [name]) := by
    rw [advance_name hdir hdots hsize]
    split
    · next target hnode =>
      rcases hlink with h | h
      · rw [if_pos ⟨rfl, h⟩]
      · exact absurd hnode (h target)
    · rfl
    · rfl
  cases links <;> rw [walk, hadvance]

theorem walk_singleton_tooLong (hdir : s.node? dir = some .directory)
    (hdots : name ≠ "." ∧ name ≠ "..") (hsize : maxNameSize < name.utf8ByteSize) :
    s.walk follow links dir [name] = .error .nameTooLong := by
  cases links <;> rw [walk, advance_tooLong hdir hdots hsize]

/-! ### Walks that go on -/

/-- The walk is not lost. -/
def Walk.GoesOn : Walk → Prop
  | .lost _ => False
  | _ => True

theorem directory_of_advance (h : (s.advance follow here (name :: rest)).GoesOn) :
    s.node? here = some .directory := by
  rw [advance] at h
  split at h
  · assumption
  · exact h.elim
  · exact h.elim

/-- A walk that goes on beyond a name has none of excessive size. -/
theorem size_le_of_advance (hdots : name ≠ "." ∧ name ≠ "..")
    (h : (s.advance follow here (name :: rest)).GoesOn) : name.utf8ByteSize ≤ maxNameSize := by
  by_contra hlarge
  rw [advance_tooLong (directory_of_advance h) hdots (Nat.not_le.1 hlarge)] at h
  exact h

theorem goesOn_of_walk (h : s.walk follow links here xs = .ok l) :
    (s.advance follow here xs).GoesOn := by
  cases hadvance : s.advance follow here xs with
  | arrived l' => trivial
  | detour here' target rest => trivial
  | lost fault => cases links <;> rw [walk, hadvance] at h <;> cases h

/-- A walk that arrives begins in a directory, if there is a step at all. -/
theorem directory_of_walk (h : s.walk follow links here xs = .ok l) (hxs : xs ≠ []) :
    s.node? here = some .directory := by
  obtain ⟨x, xs, rfl⟩ := List.exists_cons_of_ne_nil hxs
  exact directory_of_advance (goesOn_of_walk h)

/-! ### The first part of a walk -/

/-- A walk goes on from the directory into which its first names lead. -/
theorem walk_append (h : Leads s links here xs links' dir) (hys : ys ≠ []) :
    s.walk follow links here (xs ++ ys) = s.walk follow links' dir ys := by
  induction h with
  | arrived => rfl
  | stay hhere _ ih => rw [← ih]; exact walk_eq_of_advance_eq (advance_here hhere)
  | rise hhere _ ih => rw [← ih]; exact walk_eq_of_advance_eq (advance_up hhere)
  | enter hhere hdots hsize hname _ ih =>
    rw [← ih, List.cons_append, walk_name_directory hhere hdots hsize hname]
  | follow hhere hdots hsize hname _ ih =>
    rw [← ih, List.cons_append, walk_name_link hhere hdots hsize hname (Or.inl (by simp [hys])),
      List.append_assoc]

theorem exists_leads_of_walk (h : s.walk follow links here (xs ++ ys) = .ok l) (hys : ys ≠ []) :
    ∃ links' dir, Leads s links here xs links' dir ∧ s.node? dir = some .directory ∧
      s.walk follow links' dir ys = .ok l := by
  -- A link costs one of `links` but may add names, so the number of links comes first.
  induction links using Nat.strongRecOn generalizing here xs with
  | ind links ihlinks =>
    induction xs generalizing here with
    | nil => exact ⟨links, here, .arrived, directory_of_walk h hys, h⟩
    | cons x xs ih =>
      have hhere := directory_of_walk h (by simp)
      by_cases hdot : x = "."
      · subst hdot
        rw [List.cons_append, walk_eq_of_advance_eq (advance_here hhere)] at h
        obtain ⟨k, dir, hleads, hdir, hwalk⟩ := ih h
        exact ⟨k, dir, .stay hhere hleads, hdir, hwalk⟩
      by_cases hup : x = ".."
      · subst hup
        rw [List.cons_append, walk_eq_of_advance_eq (advance_up hhere)] at h
        obtain ⟨k, dir, hleads, hdir, hwalk⟩ := ih h
        exact ⟨k, dir, .rise hhere hleads, hdir, hwalk⟩
      have hne : xs ++ ys ≠ [] := by simp [hys]
      have hsize : x.utf8ByteSize ≤ maxNameSize :=
        size_le_of_advance ⟨hdot, hup⟩ (goesOn_of_walk h)
      cases hnode : s.node? (here ++ [x]) with
      | none =>
        have hadvance : s.advance follow here (x :: (xs ++ ys)) = .lost .notFound := by
          rw [advance_name hhere ⟨hdot, hup⟩ hsize, hnode]
          exact if_neg hne
        rw [List.cons_append, walk, hadvance] at h
        cases h
      | some n =>
        cases n with
        | link target =>
          cases links with
          | zero =>
            have hadvance : s.advance follow here (x :: (xs ++ ys)) =
                .detour here target (xs ++ ys) := by
              rw [advance_name hhere ⟨hdot, hup⟩ hsize, hnode]
              exact if_neg fun hboth => hne hboth.1
            rw [List.cons_append, walk, hadvance] at h
            cases h
          | succ links =>
            rw [List.cons_append, walk_name_link hhere ⟨hdot, hup⟩ hsize hnode (Or.inl hne),
              ← List.append_assoc] at h
            obtain ⟨k, dir, hleads, hdir, hwalk⟩ := ihlinks links (Nat.lt_succ_self links) h
            exact ⟨k, dir, .follow hhere ⟨hdot, hup⟩ hsize hnode hleads, hdir, hwalk⟩
        | file f =>
          have hadvance : s.walk follow links here (x :: (xs ++ ys)) =
              s.walk follow links (here ++ [x]) (xs ++ ys) := by
            refine walk_eq_of_advance_eq ?_
            rw [advance_name hhere ⟨hdot, hup⟩ hsize, hnode]
          rw [List.cons_append, hadvance] at h
          have := directory_of_walk h hne
          rw [hnode] at this
          cases this
        | directory =>
          rw [List.cons_append, walk_name_directory hhere ⟨hdot, hup⟩ hsize hnode] at h
          obtain ⟨k, dir, hleads, hdir, hwalk⟩ := ih h
          exact ⟨k, dir, .enter hhere ⟨hdot, hup⟩ hsize hnode hleads, hdir, hwalk⟩

/-- A walk along the names that lead into a directory arrives there when it follows links. -/
theorem walk_of_leads (h : Leads s links here xs links' dir) :
    s.walk true links here xs = .ok dir := by
  induction h with
  | arrived => exact walk_nil
  | stay hhere _ ih => rw [← ih]; exact walk_eq_of_advance_eq (advance_here hhere)
  | rise hhere _ ih => rw [← ih]; exact walk_eq_of_advance_eq (advance_up hhere)
  | enter hhere hdots hsize hname _ ih =>
    rw [← ih, walk_name_directory hhere hdots hsize hname]
  | follow hhere hdots hsize hname _ ih =>
    rw [← ih, walk_name_link hhere hdots hsize hname (Or.inr rfl)]

/-- It arrives somewhere, possibly at a link to the directory, when it does not follow links. -/
theorem exists_walk_of_leads (h : Leads s links here xs links' dir)
    (hdir : s.node? dir = some .directory) :
    ∃ l n, s.walk false links here xs = .ok l ∧ s.node? l = some n := by
  induction h with
  | arrived => exact ⟨_, _, walk_nil, hdir⟩
  | stay hhere _ ih => rw [walk_eq_of_advance_eq (advance_here hhere)]; exact ih hdir
  | rise hhere _ ih => rw [walk_eq_of_advance_eq (advance_up hhere)]; exact ih hdir
  | enter hhere hdots hsize hname _ ih =>
    rw [walk_name_directory hhere hdots hsize hname]; exact ih hdir
  | @follow links here name target rest _ _ hhere hdots hsize hname _ ih =>
    by_cases hrest : rest = []
    · have hadvance : s.advance false here (name :: rest) = .arrived (here ++ [name]) := by
        rw [advance_name hhere hdots hsize, hname]
        exact if_pos ⟨hrest, rfl⟩
      exact ⟨_, _, by rw [walk, hadvance], hname⟩
    · rw [walk_name_link hhere hdots hsize hname (Or.inl hrest)]; exact ih hdir

end BlockEdit.Store
