import BlockEdit.Proofs.Diff.Hunks
import BlockEdit.Proofs.Diff.Shown

/-!
# Applying a unified diff

`patch` makes the new text out of the old one and a unified diff. It reads the diff line by line: a
line that stays the same is copied from the old text, after all that stand in front of it; a deleted
line is passed over, and an inserted one is copied from the diff. Where a hunk begins with lines
that stay the same, its header says which they are (`hunkStart_header`); a hunk that begins with a
change is the first one, and the change is that of the first lines. So what else the headers say is
not needed, and `patch_unified` holds whatever it is.
-/

namespace BlockEdit.Diff

/-! ### The patch -/

/-- The number of old lines in front of a hunk, by the line that opens it. -/
def hunkStart (line : List Char) : Nat :=
  let number := (line.drop 4).takeWhile Char.isDigit
  let n := Nat.ofDigitChars 10 number 0
  if [',', '0', ' '] <+: (line.drop 4).dropWhile Char.isDigit then n else n - 1

/-- The first of the lines says that the line in front of it has no ending. -/
def saysUnended : List (List Char) → Bool
  | ('\\' :: _) :: _ => true
  | _ => false

/-- The line that is shown with a text behind its mark, by what follows it. -/
def lineOf (text : List Char) (rest : List (List Char)) : String :=
  String.ofList (if saysUnended rest then text.dropLast else text)

/-- The new lines, by the old ones and the lines of a diff. The first `place` old lines are done.
After the header of a hunk, `jump` is the number of old lines in front of it. -/
def patchFrom (old : List String) :
    (place : Nat) → (jump : Option Nat) → List (List Char) → List String
  | place, _, [] => old.drop place
  | place, jump, line :: rest =>
    match line with
    | '@' :: _ => patchFrom old place (some (hunkStart line)) rest
    | ' ' :: _ =>
      let next := jump.getD place
      (old.drop place).take (next + 1 - place) ++ patchFrom old (next + 1) none rest
    | '-' :: _ => patchFrom old (place + 1) none rest
    | '+' :: text => lineOf text rest :: patchFrom old place none rest
    | _ => patchFrom old place jump rest

/-- The new text, by the old one and a unified diff. -/
def patch (old diff : String) : String :=
  String.join (patchFrom (lines old).toList 0 none ((splitFrom [] diff.toList).drop 2))

variable {p : Pair} {i j m n place start : Nat} {jump : Option Nat} {a b c d : Place}
  {old : List String} {line : String} {rest : List (List Char)} {s first last : Segment}

/-! ### Single lines -/

theorem patchFrom_shown_same :
    patchFrom old place jump (shown ' ' line ++ rest) =
      (old.drop place).take (jump.getD place + 1 - place) ++
        patchFrom old (jump.getD place + 1) none rest := by
  rw [shown]
  split <;> rfl

theorem patchFrom_shown_deleted :
    patchFrom old place jump (shown '-' line ++ rest) = patchFrom old (place + 1) none rest := by
  rw [shown]
  split <;> rfl

/-- A line that is shown can be read, and what says that it has no ending is passed over. -/
theorem exists_shown (mark : Char) (line : String) (hrest : saysUnended rest = false) :
    ∃ text rest', shown mark line ++ rest = (mark :: text) :: rest' ∧ lineOf text rest' = line ∧
      (rest' = rest ∨ rest' = noNewlineMark.toList.tail :: rest) := by
  rw [shown]
  split
  · exact ⟨line.toList, rest, rfl, by simp [lineOf, hrest], .inl rfl⟩
  · refine ⟨line.toList ++ ['\n'], noNewlineMark.toList.tail :: rest, rfl, ?_, .inr rfl⟩
    have hnote : saysUnended (noNewlineMark.toList.tail :: rest) = true := rfl
    rw [lineOf, if_pos hnote, List.dropLast_concat, String.ofList_toList]

theorem patchFrom_shown_inserted (hrest : saysUnended rest = false) :
    patchFrom old place jump (shown '+' line ++ rest) = line :: patchFrom old place none rest := by
  obtain ⟨text, rest', hshown, hline, hpass⟩ := exists_shown '+' line hrest
  have hpass : patchFrom old place none rest' = patchFrom old place none rest := by
    obtain rfl | rfl := hpass <;> rfl
  rw [hshown, patchFrom, hline, hpass]

theorem saysUnended_shown {mark : Char} (hmark : mark ≠ '\\') :
    saysUnended (shown mark line ++ rest) = false := by
  rw [shown]
  split <;> simp [saysUnended, hmark]

/-! ### Several lines -/

theorem saysUnended_flatMap {mark : Char} (hmark : mark ≠ '\\') {ls : List String}
    (hrest : saysUnended rest = false) : saysUnended (ls.flatMap (shown mark) ++ rest) = false := by
  cases ls with
  | nil => exact hrest
  | cons line ls =>
    rw [List.flatMap_cons, List.append_assoc]
    exact saysUnended_shown hmark

theorem patchFrom_same {ls : List String} (hls : ls ≠ []) (hplace : place ≤ jump.getD place) :
    patchFrom old place jump (ls.flatMap (shown ' ') ++ rest) =
      (old.drop place).take (jump.getD place + ls.length - place) ++
        patchFrom old (jump.getD place + ls.length) none rest := by
  induction ls generalizing place jump with
  | nil => exact absurd rfl hls
  | cons line ls ih =>
    rw [List.flatMap_cons, List.append_assoc, patchFrom_shown_same]
    by_cases hnil : ls = []
    · subst hnil
      rfl
    · rw [ih hnil (Nat.le_refl _), ← List.append_assoc]
      generalize hstart : jump.getD place = start at *
      simp only [Option.getD_none, List.length_cons]
      rw [Nat.add_sub_cancel_left, show start + 1 + ls.length = start + (ls.length + 1) by omega,
        show start + (ls.length + 1) - place = (start + 1 - place) + ls.length by omega,
        List.take_add, List.drop_drop, Nat.add_sub_cancel' (by omega)]

theorem patchFrom_deleted (ls : List String) :
    patchFrom old place jump (ls.flatMap (shown '-') ++ rest) =
      patchFrom old (place + ls.length) (if ls = [] then jump else none) rest := by
  induction ls generalizing place jump with
  | nil => rfl
  | cons line ls ih =>
    rw [List.flatMap_cons, List.append_assoc, patchFrom_shown_deleted, ih, List.length_cons,
      Nat.add_right_comm, Nat.add_assoc, if_neg (List.cons_ne_nil _ _)]
    split <;> rfl

theorem patchFrom_inserted (ls : List String) (hrest : saysUnended rest = false) :
    patchFrom old place jump (ls.flatMap (shown '+') ++ rest) =
      ls ++ patchFrom old place (if ls = [] then jump else none) rest := by
  induction ls generalizing jump with
  | nil => rfl
  | cons line ls ih =>
    rw [List.flatMap_cons, List.append_assoc,
      patchFrom_shown_inserted (saysUnended_flatMap (by decide) hrest), ih,
      if_neg (List.cons_ne_nil _ _), List.cons_append]
    split <;> rfl

/-! ### Segments -/

theorem between_append {lines : Array String} (hij : i ≤ j) (hjk : j ≤ k) :
    between lines i j ++ between lines j k = between lines i k := by
  rw [between, between, between, show k - i = (j - i) + (k - j) by omega, List.take_add,
    List.drop_drop, Nat.add_sub_cancel' hij]

theorem between_size (lines : Array String) (i : Nat) :
    between lines i lines.size = lines.toList.drop i :=
  List.take_of_length_le (by rw [List.length_drop, Array.length_toList])

theorem length_between {lines : Array String} (hij : i ≤ j) (hj : j ≤ lines.size) :
    (between lines i j).length = j - i := by
  rw [between, List.length_take, List.length_drop, Array.length_toList]
  omega

/-- The old lines that may be left out are the new ones. -/
theorem between_of_skips (h : Skips p a b) : between p.old a.1 b.1 = between p.new a.2 b.2 := by
  obtain ⟨n, hagree, rfl⟩ := h
  simp only [between, Nat.add_sub_cancel_left]
  refine List.ext_getElem? fun t => ?_
  rw [List.getElem?_take, List.getElem?_take]
  split
  · next ht => simpa using hagree t ht
  · rfl

namespace Segment

theorem saysUnended_shown (p : Pair) (segments : List Segment) (hrest : saysUnended rest = false) :
    saysUnended (segments.flatMap (Segment.shown p) ++ rest) = false := by
  induction segments with
  | nil => exact hrest
  | cons s segments ih =>
    rw [List.flatMap_cons, List.append_assoc, Segment.shown]
    split
    · exact saysUnended_flatMap (by decide) ih
    · rw [List.append_assoc]
      exact saysUnended_flatMap (by decide) (saysUnended_flatMap (by decide) ih)

theorem Fits.stretch_old (h : Fits p a s b) :
    stretch p.old s.oldStart s.oldSize = between p.old a.1 b.1 := by
  rw [h.stop, between, Nat.add_sub_cancel_left, stretch]
  by_cases hsize : s.oldSize = 0
  · rw [hsize, List.take_zero, List.take_zero]
  · rw [h.old (Nat.pos_of_ne_zero hsize)]

theorem Fits.stretch_new (h : Fits p a s b) :
    stretch p.new s.newStart s.newSize = between p.new a.2 b.2 := by
  rw [h.stop, between, Nat.add_sub_cancel_left, stretch]
  by_cases hsize : s.newSize = 0
  · rw [hsize, List.take_zero, List.take_zero]
  · rw [h.new (Nat.pos_of_ne_zero hsize)]

/-- A change is applied in its place. -/
theorem Fits.patch_change (h : Fits p a s b) (hsame : s.same = false)
    (hb : b ≤ (p.old.size, p.new.size)) (hrest : saysUnended rest = false) :
    patchFrom p.old.toList a.1 jump (s.shown p ++ rest) =
      between p.new a.2 b.2 ++ patchFrom p.old.toList b.1 none rest := by
  have hold := length_between h.le.1 hb.1
  have hnew := length_between h.le.2 hb.2
  -- A change without lines would leave it to the header where the next hunk begins.
  have hjump : ∀ j : Option Nat, (if between p.new a.2 b.2 = [] then
      if between p.old a.1 b.1 = [] then j else none else none) = none := fun j => by
    split_ifs with hnil hnil'
    · rw [hnil, List.length_nil] at hnew
      rw [hnil', List.length_nil] at hold
      exact absurd h.lt (not_lt_of_ge ⟨by omega, by omega⟩)
    · rfl
    · rfl
  rw [Segment.shown, if_neg (by simp [hsame]), h.stretch_old, h.stretch_new, List.append_assoc,
    patchFrom_deleted, patchFrom_inserted _ hrest, hjump, hold, Nat.add_sub_cancel' h.le.1]

/-- Lines that stay the same are copied, after those that were left out. -/
theorem Fits.patch_same (h : Fits p a s b) (hsame : s.same = true)
    (hb : b ≤ (p.old.size, p.new.size)) (hplace : place ≤ a.1) (hjump : jump.getD place = a.1) :
    patchFrom p.old.toList place jump (s.shown p ++ rest) =
      between p.old place b.1 ++ patchFrom p.old.toList b.1 none rest := by
  have hlength := length_between h.le.1 hb.1
  have hpos := h.oldSize_pos hsame
  have hstop : b.1 = a.1 + s.oldSize := congrArg Prod.fst h.stop
  rw [Segment.shown, if_pos hsame, h.stretch_old, patchFrom_same
    (List.ne_nil_of_length_pos (by omega)) (hjump ▸ hplace), hjump, hlength,
    Nat.add_sub_cancel' h.le.1, between]

end Segment

/-- Segments that follow one another are applied in their places. -/
theorem patch_tiles {segments : List Segment} (h : Tiles (Segment.Fits p) a segments b)
    (hb : b ≤ (p.old.size, p.new.size)) (hrest : saysUnended rest = false) :
    patchFrom p.old.toList a.1 none (segments.flatMap (Segment.shown p) ++ rest) =
      between p.new a.2 b.2 ++ patchFrom p.old.toList b.1 none rest := by
  induction h with
  | nil a => simp [between]
  | @cons a b c s segments hs htiles ih =>
    have hle := htiles.le Segment.Fits.le
    have hrest' := Segment.saysUnended_shown p segments hrest
    rw [List.flatMap_cons, List.append_assoc, ← between_append hs.le.2 hle.2,
      List.append_assoc, ← ih hb]
    cases hsame : s.same with
    | false => exact hs.patch_change hsame (hle.trans hb) hrest'
    | true =>
      rw [hs.patch_same hsame (hle.trans hb) (Nat.le_refl _) rfl,
        between_of_skips (hs.skips_all hsame)]

/-! ### Hunks -/

/-- The number behind the first four characters, and what stands behind it, say where a hunk
begins. -/
theorem hunkStart_eq {header cs : List Char} (h : header.drop 4 = Nat.toDigits 10 n ++ cs)
    (hcs : ∀ c ∈ cs.head?, c.isDigit = false) :
    hunkStart header = if [',', '0', ' '] <+: cs then n else n - 1 := by
  have hdigits : ∀ c ∈ Nat.toDigits 10 n, c.isDigit = true := fun c hc =>
    Nat.isDigit_of_mem_toDigits (by decide) (by decide) hc
  have hnone : cs.takeWhile Char.isDigit = [] ∧ cs.dropWhile Char.isDigit = cs := by
    cases cs with
    | nil => exact ⟨rfl, rfl⟩
    | cons c cs => simp [hcs c rfl]
  simp only [hunkStart, h, List.takeWhile_append_of_pos hdigits,
    List.dropWhile_append_of_pos hdigits, hnone, List.append_nil, Nat.ofDigitChars_ten_toDigits]

/-- The digits of a number that is not zero are not a zero alone. -/
theorem not_prefix_toDigits {cs : List Char} (hn : n ≠ 0) :
    ¬['0', ' '] <+: Nat.toDigits 10 n ++ ' ' :: cs := by
  have hvalue := Nat.ofDigitChars_ten_toDigits (n := n)
  have hspace : ' ' ∉ Nat.toDigits 10 n := fun h =>
    absurd (Nat.isDigit_of_mem_toDigits (by decide) (by decide) h) (by decide)
  intro h
  cases hdigits : Nat.toDigits 10 n with
  | nil => simp [hdigits] at h
  | cons d ds =>
    rw [hdigits] at hvalue hspace h
    rw [List.cons_append, List.cons_prefix_cons] at h
    obtain ⟨rfl, h⟩ := h
    cases ds with
    | nil => exact hn hvalue.symm
    | cons e ds =>
      rw [List.cons_append, List.cons_prefix_cons] at h
      obtain ⟨rfl, -⟩ := h
      exact hspace (by simp)

/-- The header of a hunk says how many old lines stand in front of it. -/
theorem hunkStart_header (first last : Segment) :
    hunkStart (Hunk.header first last).toList = first.oldStart := by
  obtain ⟨cs, hheader⟩ : ∃ cs, (Hunk.header first last).toList =
      "@@ -".toList ++ ((rangeText first.oldStart last.oldStop).toList ++ ' ' :: cs) :=
    ⟨'+' :: (rangeText first.newStart last.newStop).toList ++ " @@\n".toList, by
      simp [Hunk.header]⟩
  have hdrop : (Hunk.header first last).toList.drop 4 =
      (rangeText first.oldStart last.oldStop).toList ++ ' ' :: cs := by
    rw [hheader]; rfl
  rw [toList_rangeText] at hdrop
  generalize first.oldStart = start at *
  generalize last.oldStop = stop at *
  by_cases hone : stop - start = 1
  · rw [if_pos hone] at hdrop
    rw [hunkStart_eq hdrop (by simp), if_neg (by simp), Nat.add_sub_cancel]
  rw [if_neg hone] at hdrop
  by_cases hzero : stop - start = 0
  · rw [if_pos hzero, List.append_assoc] at hdrop
    rw [hunkStart_eq hdrop (by simp), if_pos (by simp)]
  · rw [if_neg hzero, List.append_assoc] at hdrop
    have hsize : ¬[',', '0', ' '] <+: ',' :: Nat.toDigits 10 (stop - start) ++ ' ' :: cs := by
      rw [List.cons_append, List.cons_prefix_cons]
      exact fun h => not_prefix_toDigits hzero h.2
    rw [hunkStart_eq hdrop (by simp), if_neg hsize, Nat.add_sub_cancel]

theorem patchFrom_header (first last : Segment) :
    patchFrom old place jump ((Hunk.header first last).toList :: rest) =
      patchFrom old place (some first.oldStart) rest := by
  rw [← hunkStart_header first last]
  obtain ⟨cs, hcs⟩ : ∃ cs, (Hunk.header first last).toList = '@' :: cs :=
    ⟨(Hunk.header first last).toList.tail, by simp [Hunk.header]⟩
  rw [hcs, patchFrom]

theorem saysUnended_hunks (p : Pair) (hs : List Hunk) :
    saysUnended (hs.flatMap (Hunk.shown p)) = false := by
  induction hs with
  | nil => rfl
  | cons hunk hs ih =>
    cases hunk with
    | nil => exact ih
    | cons first segments => simp [Hunk.shown, Hunk.header, saysUnended]

/-- A hunk is applied in its place, behind the lines that it leaves out. -/
theorem Hunk.Fits.patch {hunk : Hunk} (h : Hunk.Fits p a hunk c)
    (hc : c ≤ (p.old.size, p.new.size)) (hrest : saysUnended rest = false) :
    patchFrom p.old.toList a.1 none (hunk.shown p ++ rest) =
      between p.new a.2 c.2 ++ patchFrom p.old.toList c.1 none rest := by
  obtain ⟨b, hskips, hopens, htiles⟩ := h.tiles
  cases hunk with
  | nil => exact absurd rfl h.ne_nil
  | cons s segments =>
    obtain ⟨d, hs, hsegments⟩ := tiles_cons_iff.1 htiles
    have hle := hsegments.le Segment.Fits.le
    have hended := Segment.saysUnended_shown p segments hrest
    rw [Hunk.shown, List.cons_append, patchFrom_header, List.flatMap_cons, List.append_assoc]
    cases hsame : s.same with
    | true =>
      have hstart : (some s.oldStart).getD a.1 = b.1 := hs.old (hs.oldSize_pos hsame)
      have hskips' := hskips.trans (hs.skips_all hsame)
      rw [hs.patch_same hsame (hle.trans hc) hskips.le.1 hstart,
        between_of_skips hskips', patch_tiles hsegments hc hrest, ← List.append_assoc,
        between_append hskips'.le.2 hle.2]
    | false =>
      -- Nothing stands in front of the first lines.
      obtain rfl : b = (0, 0) := (opensAt_cons.1 hopens).resolve_left (by simp [hsame])
      obtain rfl : a = (0, 0) := le_antisymm hskips.le ⟨Nat.zero_le _, Nat.zero_le _⟩
      rw [hs.patch_change hsame (hle.trans hc) hended, patch_tiles hsegments hc hrest,
        ← List.append_assoc, between_append hs.le.2 hle.2]

/-- Hunks that follow one another are applied in their places. -/
theorem patch_hunks {hs : List Hunk} (h : Tiles (Hunk.Fits p) a hs c)
    (hc : c ≤ (p.old.size, p.new.size)) :
    patchFrom p.old.toList a.1 none (hs.flatMap (Hunk.shown p)) =
      between p.new a.2 c.2 ++ p.old.toList.drop c.1 := by
  induction h with
  | nil a => simp [between, patchFrom]
  | @cons a b c hunk hs hhunk htiles ih =>
    have hle := htiles.le Hunk.Fits.le
    rw [List.flatMap_cons, hhunk.patch (hle.trans hc) (saysUnended_hunks p hs), ih hc,
      ← List.append_assoc, between_append hhunk.le.2 hle.2]

theorem join_lines (text : String) : String.join (lines text).toList = text := by
  apply String.toList_inj.1
  rw [lines, String.toList_join, List.flatMap_map]
  have h : ∀ l : List (List Char), (l.flatMap fun cs => (String.ofList cs).toList) = l.flatten :=
    fun l => by simp [List.flatMap_def]
  rw [h, flatten_splitFrom]
  rfl

/-- The hunks of two texts make the new lines out of the old ones. -/
theorem patch_pair (p : Pair) :
    patchFrom p.old.toList 0 none ((hunks p.segments).flatMap (Hunk.shown p)) = p.new.toList := by
  obtain ⟨e, htiles, hskips⟩ := exists_tiles_hunks p
  have hrest : p.old.toList.drop e.1 = between p.new e.2 p.new.size := by
    rw [← between_size, between_of_skips hskips]
  have hpatch : patchFrom p.old.toList 0 none _ = _ := patch_hunks htiles hskips.le
  rw [hpatch, hrest, between_append (Nat.zero_le _) hskips.le.2, between_size, List.drop_zero]

/-- The unified diff of two texts makes the new one out of the old one. -/
theorem patch_unified {path : String} (hpath : NoBreak path.toList) (old new : String) :
    patch old (unified path old new) = new := by
  have hpatch := patch_pair (.ofTexts old new)
  rw [← lines_unified old new path hpath] at hpatch
  rw [patch]
  exact (congrArg String.join hpatch).trans (join_lines new)

end BlockEdit.Diff
