import BlockEdit.Proofs.Path.NormalForm
import BlockEdit.Proofs.Store.Directories
import BlockEdit.Proofs.Store.Replacement
import Mathlib.Data.List.Basic

/-!
# Stores without links

Where no link stands, a path without steps up leads to the place that its names spell out
(`locate?_of_isPlain`), in every store with the same working directory. Nothing that writes files
makes a link: `addsNoLink_step` says so for a step of a replacement, and `addsNoLink_write` for all
that is done to write a file.
-/

namespace BlockEdit

namespace Store

/-- No link stands anywhere. -/
def LinkFree (s : Store) : Prop := ∀ l target, s.node? l ≠ some (.link target)

theorem linkFree_root (here : Location) : LinkFree (root here) := fun l target => by
  by_cases hl : l = [] <;> simp [node?_root, hl]

variable {s s' s'' : Store} {l here : Location} {n : FileNode} {follow : Bool} {links : Nat}
  {xs : List String} {path : String}

/-! ### Places in a store without links -/

/-- The place that a path spells out, for somebody in the directory `here`. -/
def placeOf (here : Location) (path : String) : Location :=
  origin here path.toList ++ names path.toList

theorem walk_linkFree (hs : s.LinkFree) (hxs : ∀ x ∈ xs, x ≠ "." ∧ x ≠ "..")
    (h : s.walk follow links here xs = .ok l) : l = here ++ xs := by
  induction xs generalizing here with
  | nil =>
    rw [walk_nil] at h
    rw [List.append_nil, Except.ok.inj h]
  | cons x xs ih =>
    obtain ⟨hdots, hxs⟩ := List.forall_mem_cons.1 hxs
    have hhere := directory_of_walk h (by simp)
    -- The walk goes on from the next place, or ends there.
    have hnext : s.advance follow here (x :: xs) = s.advance follow (here ++ [x]) xs ∨
        xs = [] ∧ s.advance follow here (x :: xs) = .arrived (here ++ [x]) ∨
        ∃ fault, s.advance follow here (x :: xs) = .lost fault := by
      by_cases hsize : x.utf8ByteSize ≤ maxNameSize
      · rw [advance_name hhere hdots hsize]
        cases hnode : s.node? (here ++ [x]) with
        | none =>
          by_cases hnil : xs = []
          · exact .inr (.inl ⟨hnil, if_pos hnil⟩)
          · exact .inr (.inr ⟨_, if_neg hnil⟩)
        | some n =>
          cases n with
          | link target => exact absurd hnode (hs _ _)
          | file f => exact .inl rfl
          | directory => exact .inl rfl
      · exact .inr (.inr ⟨_, advance_tooLong hhere hdots (Nat.not_le.1 hsize)⟩)
    rcases hnext with hnext | ⟨rfl, hnext⟩ | ⟨fault, hnext⟩
    · rw [walk_eq_of_advance_eq hnext] at h
      rw [ih hxs h, List.append_assoc, List.singleton_append]
    · cases links <;> rw [walk, hnext] at h <;> exact (Except.ok.inj h).symm
    · cases links <;> rw [walk, hnext] at h <;> cases h

section Plain

variable {root : Path.Root} {ps : List (List Char)} {path : Path}

theorem names_of_isPlain (h : path.IsPlain root ps) :
    names path.text.toList = ps.map String.ofList := by
  obtain ⟨htext, hps⟩ := h
  rw [htext]
  exact names_of_pieces root fun p hp => ⟨(hps p hp).1, (hps p hp).2.2.2⟩

theorem origin_of_isPlain (h : path.IsPlain root ps) :
    origin here path.text.toList = if root = .relative then here else [] := by
  obtain ⟨htext, hps⟩ := h
  rw [htext, origin]
  cases root with
  | relative =>
    rw [if_pos rfl]
    exact if_neg (Path.head?_joinPieces_ne_slash hps)
  | slash => rfl
  | share => rfl

/-- A path without steps up leads to the place that it spells out, if it leads anywhere. -/
theorem locate?_of_isPlain (hs : s.LinkFree) (hpath : path.IsPlain root ps)
    (h : s.locate? follow path.text = .ok l) : l = placeOf s.workingDirectory path.text := by
  obtain ⟨-, -, -, hwalk⟩ := locate?_eq_ok_iff.1 h
  refine walk_linkFree hs (fun x hx => ?_) hwalk
  rw [names_of_isPlain hpath] at hx
  obtain ⟨p, hp, rfl⟩ := List.mem_map.1 hx
  obtain ⟨-, hhere, hup, -⟩ := hpath.2 p hp
  rw [← String.toList_inj.ne, ← String.toList_inj.ne, String.toList_ofList]
  exact ⟨hhere, hup⟩

end Plain

/-! ### Nothing makes a link -/

/-- The store `s'` has links only if `s` has any, and it is seen from the same directory. -/
structure AddsNoLink (s s' : Store) : Prop where
  workingDirectory : s'.workingDirectory = s.workingDirectory
  linkFree : s.LinkFree → s'.LinkFree

theorem AddsNoLink.refl (s : Store) : AddsNoLink s s := ⟨rfl, id⟩

theorem AddsNoLink.trans (h : AddsNoLink s s') (h' : AddsNoLink s' s'') : AddsNoLink s s'' :=
  ⟨h'.workingDirectory.trans h.workingDirectory, fun hs => h'.linkFree (h.linkFree hs)⟩

theorem addsNoLink_put (hn : s.LinkFree → ∀ target, n ≠ .link target) :
    AddsNoLink s (s.put l n) where
  workingDirectory := rfl
  linkFree hs l' target := by
    by_cases hnil : l' = []
    · simp [hnil]
    rw [node?_of_ne_nil hnil, getElem?_put]
    split
    · simpa using hn hs target
    · rw [← node?_of_ne_nil hnil]
      exact hs l' target

theorem addsNoLink_erase : AddsNoLink s (s.erase l) where
  workingDirectory := rfl
  linkFree hs l' target := by
    by_cases hnil : l' = []
    · simp [hnil]
    rw [node?_of_ne_nil hnil, getElem?_erase]
    split
    · simp
    · rw [← node?_of_ne_nil hnil]
      exact hs l' target

theorem addsNoLink_makeDirectory (h : s.makeDirectory path = .ok s') : AddsNoLink s s' := by
  obtain ⟨l, -, -, rfl⟩ := makeDirectory_eq_ok h
  exact addsNoLink_put (by simp)

theorem addsNoLink_makeDirectories (s : Store) (paths : List String) :
    AddsNoLink s (s.makeDirectories paths).1 := by
  induction paths generalizing s with
  | nil => exact .refl s
  | cons path above ih =>
    unfold makeDirectories
    split
    · next s' hmake => exact addsNoLink_makeDirectory hmake
    · have habove := ih s
      split
      · next s' fault heq => simpa [heq] using habove
      · next s' heq =>
        rw [heq] at habove
        split
        · next s'' hmake => exact habove.trans (addsNoLink_makeDirectory hmake)
        · exact habove
    · exact .refl s

theorem addsNoLink_openFile {f : File} (h : s.openFile path = .ok (s', l, f)) :
    AddsNoLink s s' := by
  unfold openFile at h
  split at h
  · cases h
  · split at h
    · cases h; exact .refl s
    · cases h
    · cases h; exact addsNoLink_put (by simp)

theorem addsNoLink_changeFile {change : File → File} (h : s.changeFile path change = .ok s') :
    AddsNoLink s s' := by
  unfold changeFile at h
  split at h
  · cases h
  · cases h; exact addsNoLink_put (by simp)
  · cases h

theorem addsNoLink_rename {target : String} (h : s.rename path target = .ok s') :
    AddsNoLink s s' := by
  obtain ⟨old, new, n, -, -, hnode, -, ⟨-, rfl⟩ | ⟨-, rfl⟩⟩ := rename_eq_ok h
  · exact .refl s'
  · -- What is moved is no link, because there was none.
    have hn : s.LinkFree → ∀ target, n ≠ .link target := fun hs target heq =>
      hs old target (heq ▸ hnode)
    exact ⟨rfl, fun hs => (addsNoLink_put fun _ => hn hs).linkFree (addsNoLink_erase.linkFree hs)⟩

theorem addsNoLink_remove (s : Store) (path : String) : AddsNoLink s (s.remove path) := by
  unfold remove
  split
  · exact .refl s
  · split
    · exact .refl s
    · exact addsNoLink_erase

theorem addsNoLink_unlock (s : Store) (path : String) : AddsNoLink s (s.unlock path) := by
  unfold unlock
  split
  · exact .refl s
  · next s' h => exact addsNoLink_changeFile h

end Store

namespace Replacement

open Store

variable {r : Replacement} {s : Store} {stage : Stage}

theorem addsNoLink_proceed {result : Except Fault Store} {next : Stage} {path : String}
    {failed : StoreError → Stage} (h : ∀ s', result = .ok s' → AddsNoLink s s') :
    AddsNoLink s (proceed s result next path failed).1 := by
  cases result with
  | ok s' => exact h s' rfl
  | error fault => exact .refl s

theorem addsNoLink_takeLock (r : Replacement) (s : Store) : AddsNoLink s (r.takeLock s).1 := by
  unfold takeLock
  split
  · split
    · exact .refl s
    · exact addsNoLink_put (by simp)
  · exact .refl s

theorem addsNoLink_openTemporary {s' : Store} (h : r.openTemporary s = .ok s') :
    AddsNoLink s s' := by
  unfold openTemporary at h
  split at h
  · cases h
  · next s'' l f hopen =>
    cases h
    exact (addsNoLink_openFile hopen).trans (addsNoLink_put (by simp))

theorem addsNoLink_perform (r : Replacement) (s : Store) (stage : Stage) :
    AddsNoLink s (r.perform s stage).1 := by
  cases stage <;> simp only [perform]
  case openLock =>
    refine addsNoLink_proceed fun s' h => ?_
    cases hopen : s.openFile r.lockPath with
    | error fault => simp [hopen, Except.map] at h
    | ok opened =>
      obtain ⟨s'', l, f⟩ := opened
      simp only [hopen, Except.map, Except.ok.injEq] at h
      exact h ▸ addsNoLink_openFile hopen
  case takeLock => exact addsNoLink_takeLock r s
  case openTemporary => exact addsNoLink_proceed fun _ => addsNoLink_openTemporary
  case fillTemporary => exact addsNoLink_proceed fun _ => addsNoLink_changeFile
  case setMode => exact addsNoLink_proceed fun _ => addsNoLink_changeFile
  case flush => exact .refl s
  case moveIntoPlace => exact addsNoLink_proceed fun _ => addsNoLink_rename
  case removeTemporary e => exact addsNoLink_remove s r.temporaryPath
  case releaseLock result => exact addsNoLink_unlock s r.lockPath
  case finished result => exact .refl s

theorem addsNoLink_remnant (r : Replacement) (s : Store) (arrived : Nat) (stage : Stage) :
    AddsNoLink s (r.remnant s arrived stage) := by
  unfold remnant
  split
  · split
    · exact .refl s
    · next s' hfill => exact addsNoLink_changeFile hfill
  · exact .refl s

/-- No step of a replacement makes a link. -/
theorem addsNoLink_step (r : Replacement) (s : Store) (stage : Stage) :
    AddsNoLink s (r.step s stage).1 := by
  obtain hgranted | ⟨refusal, -, hrefused⟩ := step_cases r s stage
  · rw [hgranted]
    exact addsNoLink_perform r s stage
  · rw [hrefused]
    exact addsNoLink_remnant r s refusal.arrived stage

theorem addsNoLink_finish (r : Replacement) (s : Store) (stage : Stage) :
    AddsNoLink s (r.finish s stage).1 :=
  finish_invariant (P := fun s' _ => AddsNoLink s s') r
    (fun s' stage h => h.trans (addsNoLink_step r s' stage)) (.refl s)

end Replacement

namespace Store

variable {s : Store} {path : Path}

theorem addsNoLink_makeParent (s : Store) (path : Path) : AddsNoLink s (s.makeParent path).1 := by
  unfold makeParent
  split
  · exact .refl s
  · next parent _ =>
    have hmake := addsNoLink_makeDirectories s (parent.ancestors.map (·.text))
    split
    · next s' heq => rwa [heq] at hmake
    · next s' fault heq => rwa [heq] at hmake

theorem addsNoLink_write (s : Store) (process : Nat) (path : Path) (bytes : ByteArray) :
    AddsNoLink s (s.write process path bytes).1 := by
  unfold write
  have hparent := addsNoLink_makeParent s path
  split
  · next s' e heq => rwa [heq] at hparent
  · next s' heq =>
    rw [heq] at hparent
    split
    · exact hparent
    · exact hparent.trans (Replacement.addsNoLink_finish _ _ _)

end Store

end BlockEdit
