import BlockEdit.Proofs.Store.LinkFree
import BlockEdit.Proofs.Store.SameWays
import BlockEdit.Store.Read

/-!
# What is met on the way of a path

In a store without links, what a path leads to depends only on what stands at the places on its way
(`wayOf`), and not on the bytes of files in between. `LooksSame path s t` says that `t` differs from
`s` on the way at files alone, and not where the path ends. Then the path leads to the same in both
stores, or it is lost in the same way (`LooksSame.find?_eq`).
-/

namespace BlockEdit.Store

variable {s t t' : Store} {follow : Bool} {links : Nat} {here l k : Location} {name : String}
  {xs rest : List String} {path : String} {places : Set Location}

/-- The places where somebody stands who goes along names, from `here` on, and meets no link. -/
def stops (here : Location) : List String → List Location
  | [] => [here]
  | name :: rest =>
    here ::
      if name = "." then stops here rest
      else if name = ".." then stops here.dropLast rest
      else stops (here ++ [name]) rest

/-- The places on the way of a path, for somebody in the directory `here`. -/
def wayOf (here : Location) (path : String) : List Location :=
  stops (origin here path.toList) (names path.toList)

/-- The same stands at a place in both stores, or a file in each of them. -/
def Alike (s t : Store) (l : Location) : Prop :=
  t.node? l = s.node? l ∨ (∃ f, s.node? l = some (.file f)) ∧ ∃ g, t.node? l = some (.file g)

/-- The store `t` differs from `s` on the way of a path at files alone, and not at its end. -/
structure LooksSame (path : String) (s t : Store) : Prop where
  workingDirectory : t.workingDirectory = s.workingDirectory
  way : ∀ l ∈ wayOf s.workingDirectory path, Alike s t l
  last : ∀ l, s.locate? true path = .ok l → t.node? l = s.node? l

theorem SameWays.linkFree (h : SameWays s t) (hs : s.LinkFree) : t.LinkFree :=
  fun l target hlink => hs l target ((h.link l target).1 hlink)

/-! ### Walks without links -/

theorem mem_stops_self (here : Location) (xs : List String) : here ∈ stops here xs := by
  cases xs <;> simp [stops]

theorem stops_here : stops here ("." :: rest) = here :: stops here rest := rfl

theorem stops_up : stops here (".." :: rest) = here :: stops here.dropLast rest := rfl

theorem stops_name (hdots : name ≠ "." ∧ name ≠ "..") :
    stops here (name :: rest) = here :: stops (here ++ [name]) rest := by
  rw [stops, if_neg hdots.1, if_neg hdots.2]

/-- The walk arrives at one of the places, or it is lost. -/
def Walk.EndsIn (places : List Location) : Walk → Prop
  | .arrived l => l ∈ places
  | .detour _ _ _ => False
  | .lost _ => True

theorem Walk.EndsIn.cons {walk : Walk} {places : List Location} (h : walk.EndsIn places)
    (l : Location) : walk.EndsIn (l :: places) := by
  cases walk with
  | arrived l' => exact List.mem_cons_of_mem l h
  | detour here target rest => exact h
  | lost fault => trivial

theorem LinkFree.advance_endsIn (hs : s.LinkFree) (follow : Bool) (here : Location)
    (xs : List String) : (s.advance follow here xs).EndsIn (stops here xs) := by
  induction xs generalizing here with
  | nil => exact mem_stops_self here []
  | cons name rest ih =>
    by_cases hhere : s.node? here = some .directory
    swap
    · rw [advance]
      split
      · contradiction
      · trivial
      · trivial
    by_cases hdot : name = "."
    · subst hdot
      rw [advance_here hhere, stops_here]
      exact (ih here).cons here
    by_cases hup : name = ".."
    · subst hup
      rw [advance_up hhere, stops_up]
      exact (ih here.dropLast).cons here
    rw [stops_name ⟨hdot, hup⟩]
    by_cases hsize : name.utf8ByteSize ≤ maxNameSize
    · rw [advance_name hhere ⟨hdot, hup⟩ hsize]
      cases hnode : s.node? (here ++ [name]) with
      | none =>
        by_cases hrest : rest = []
        · simp only [if_pos hrest]
          exact List.mem_cons_of_mem here (mem_stops_self (here ++ [name]) rest)
        · simp only [if_neg hrest]
          trivial
      | some n =>
        cases n with
        | link target => exact absurd hnode (hs _ _)
        | file f => exact (ih (here ++ [name])).cons here
        | directory => exact (ih (here ++ [name])).cons here
    · rw [advance_tooLong hhere ⟨hdot, hup⟩ (Nat.not_le.1 hsize)]
      trivial

theorem advance_congr (hs : s.LinkFree) (h : ∀ l ∈ stops here xs, Alike s t l) :
    t.advance follow here xs = s.advance follow here xs := by
  induction xs generalizing here with
  | nil => rfl
  | cons name rest ih =>
    have hhere := h here (mem_stops_self _ _)
    by_cases hdirectory : s.node? here = some .directory
    swap
    · rw [advance, advance]
      obtain hsame | ⟨⟨f, hf⟩, g, hg⟩ := hhere
      · rw [hsame]
        cases hnode : s.node? here with
        | none => rfl
        | some n =>
          cases n with
          | directory => exact absurd hnode hdirectory
          | file f => rfl
          | link target => rfl
      · rw [hf, hg]
    have hdirectory' : t.node? here = some .directory := by
      obtain hsame | ⟨⟨f, hf⟩, -⟩ := hhere
      · rw [hsame, hdirectory]
      · rw [hdirectory] at hf
        cases hf
    by_cases hdot : name = "."
    · subst hdot
      rw [stops_here, List.forall_mem_cons] at h
      rw [advance_here hdirectory, advance_here hdirectory', ih h.2]
    by_cases hup : name = ".."
    · subst hup
      rw [stops_up, List.forall_mem_cons] at h
      rw [advance_up hdirectory, advance_up hdirectory', ih h.2]
    rw [stops_name ⟨hdot, hup⟩, List.forall_mem_cons] at h
    by_cases hsize : name.utf8ByteSize ≤ maxNameSize
    · rw [advance_name hdirectory ⟨hdot, hup⟩ hsize, advance_name hdirectory' ⟨hdot, hup⟩ hsize]
      obtain hsame | ⟨⟨f, hf⟩, g, hg⟩ := h.2 _ (mem_stops_self _ _)
      · rw [hsame]
        cases hnode : s.node? (here ++ [name]) with
        | none => rfl
        | some n =>
          cases n with
          | link target => exact absurd hnode (hs _ _)
          | file f => exact ih h.2
          | directory => exact ih h.2
      · rw [hf, hg]
        exact ih h.2
    · have hlong := Nat.not_le.1 hsize
      rw [advance_tooLong hdirectory ⟨hdot, hup⟩ hlong,
        advance_tooLong hdirectory' ⟨hdot, hup⟩ hlong]

theorem walk_congr (hs : s.LinkFree) (h : ∀ l ∈ stops here xs, Alike s t l) :
    t.walk follow links here xs = s.walk follow links here xs := by
  have hadvance : t.advance follow here xs = s.advance follow here xs := advance_congr hs h
  have hends := hs.advance_endsIn follow here xs
  cases hwalk : s.advance follow here xs with
  | arrived l =>
    rw [hwalk] at hadvance
    cases links <;> rw [walk, walk, hwalk, hadvance]
  | detour here' target rest =>
    rw [hwalk] at hends
    exact hends.elim
  | lost fault =>
    rw [hwalk] at hadvance
    cases links <;> rw [walk, walk, hwalk, hadvance]

theorem locate?_congr (hs : s.LinkFree) (hhere : t.workingDirectory = s.workingDirectory)
    (h : ∀ l ∈ wayOf s.workingDirectory path, Alike s t l) :
    t.locate? follow path = s.locate? follow path := by
  rw [locate?, locate?, hhere, walk_congr hs h]

/-- The place to which a path leads is on its way. -/
theorem mem_wayOf_of_locate? (hs : s.LinkFree) (h : s.locate? follow path = .ok l) :
    l ∈ wayOf s.workingDirectory path := by
  obtain ⟨-, -, -, hwalk⟩ := locate?_eq_ok_iff.1 h
  have hends := hs.advance_endsIn follow (origin s.workingDirectory path.toList)
    (names path.toList)
  rw [maxLinks, walk] at hwalk
  cases hadvance : s.advance follow (origin s.workingDirectory path.toList)
      (names path.toList) with
  | arrived l' =>
    rw [hadvance] at hends hwalk
    exact Except.ok.inj hwalk ▸ hends
  | detour here' target rest =>
    rw [hadvance] at hends
    exact hends.elim
  | lost fault =>
    rw [hadvance] at hwalk
    cases hwalk

/-! ### Stores that look the same -/

theorem LooksSame.refl (path : String) (s : Store) : LooksSame path s s :=
  ⟨rfl, fun _ _ => .inl rfl, fun _ _ => rfl⟩

theorem LooksSame.find?_eq (h : LooksSame path s t) (hs : s.LinkFree) :
    t.find? path = s.find? path := by
  rw [find?, find?, locate?_congr hs h.workingDirectory h.way]
  cases hl : s.locate? true path with
  | error fault => rfl
  | ok l => simp only [h.last l hl]

theorem readText_congr {path : Path} (h : t.find? path.text = s.find? path.text) :
    t.readText path = s.readText path := by
  rw [readText, readText, readBytes, readBytes, h]

/-- Stores look the same after a change at places of which a path meets directories at most, and
that of a file, which stays a file and is not the one to which the path leads. -/
theorem LooksSame.of_alters (h : LooksSame path s t) (hs : s.LinkFree) (hways : SameWays s t)
    (halters : Alters places t t') (hf : ∃ f, s.node? l = some (.file f))
    (hg : ∃ g, t'.node? l = some (.file g)) (hl : s.locate? true path ≠ .ok l)
    (hway : ∀ k ∈ wayOf s.workingDirectory path, k ∈ places →
      k = l ∨ s.node? k = some .directory) : LooksSame path s t' where
  workingDirectory := halters.sameWays.workingDirectory.trans h.workingDirectory
  way k hk := by
    by_cases hmem : k ∈ places
    · obtain rfl | hdirectory := hway k hk hmem
      · exact .inr ⟨hf, hg⟩
      · have := ((hways.trans halters.sameWays).directory k).2 hdirectory
        exact .inl (this.trans hdirectory.symm)
    · rw [Alike, halters.frame k hmem]
      exact h.way k hk
  last k hk := by
    by_cases hmem : k ∈ places
    · obtain rfl | hdirectory := hway k (mem_wayOf_of_locate? hs hk) hmem
      · exact absurd hk hl
      · have := ((hways.trans halters.sameWays).directory k).2 hdirectory
        exact this.trans hdirectory.symm
    · rw [halters.frame k hmem, h.last k hk]

end BlockEdit.Store
