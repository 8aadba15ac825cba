import BlockEdit.Proofs.Diff.Counts

/-!
# The roles of the lines of a diff

A line of a unified diff names the file, opens a hunk, or shows a line of a text that stays the
same, is deleted, or is inserted (`Role`). What it is follows from its place in the segments of the
difference, not from its characters (`roleLines`).

Where each line of both texts ends with a line feed, these are all lines of the diff
(`splitFrom_unified_eq_roleLines`). Behind the two that name the file, each one opens a hunk or
shows a line of the text that its role says (`shows_of_mem_hunkLines`), and there are as many
inserted and deleted ones as the summary says (`countP_roleLines`).
-/

namespace BlockEdit.Diff

/-- What a line of a unified diff is. -/
inductive Role where
  | name
  | range
  | same
  | deleted
  | inserted
  deriving DecidableEq, Repr

/-- A line of a unified diff, without its ending. -/
structure RoleLine where
  role : Role
  text : List Char
  deriving DecidableEq, Repr

/-- A line of a diff with its ending. -/
def RoleLine.line (l : RoleLine) : List Char := l.text ++ ['\n']

/-- A line of a text, which has an ending, as it is shown in a role. -/
def showIn (role : Role) (mark : Char) (line : String) : RoleLine :=
  ⟨role, mark :: line.toList.dropLast⟩

/-- The lines of a diff that show a segment. -/
def Segment.roleLines (p : Pair) (s : Segment) : List RoleLine :=
  if s.same then (stretch p.old s.oldStart s.oldSize).map (showIn .same ' ')
  else (stretch p.old s.oldStart s.oldSize).map (showIn .deleted '-') ++
    (stretch p.new s.newStart s.newSize).map (showIn .inserted '+')

/-- The lines of a diff that show a hunk. -/
def Hunk.roleLines (p : Pair) : Hunk → List RoleLine
  | [] => []
  | first :: rest =>
    ⟨.range, (Hunk.rangeLine first (rest.getLastD first)).toList⟩ ::
      (first :: rest).flatMap (Segment.roleLines p)

/-- The lines of the hunks of two texts. -/
def hunkLines (old new : String) : List RoleLine :=
  (hunks (Pair.ofTexts old new).segments).flatMap (Hunk.roleLines (.ofTexts old new))

/-- The lines of the unified diff of two texts that differ. -/
def roleLines (path old new : String) : List RoleLine :=
  [⟨.name, "--- a/".toList ++ path.toList⟩, ⟨.name, "+++ b/".toList ++ path.toList⟩] ++
    hunkLines old new

/-- What a line of a hunk shows: the range of the hunk, or a line of a text behind a mark. -/
inductive RoleLine.Shows (old new : String) : RoleLine → Prop
  | range (first last : Segment) : Shows old new ⟨.range, (Hunk.rangeLine first last).toList⟩
  | same {body : List Char} (hbody : NoBreak body)
    (h : String.ofList (body ++ ['\n']) ∈ lines old) : Shows old new ⟨.same, ' ' :: body⟩
  | deleted {body : List Char} (hbody : NoBreak body)
    (h : String.ofList (body ++ ['\n']) ∈ lines old) : Shows old new ⟨.deleted, '-' :: body⟩
  | inserted {body : List Char} (hbody : NoBreak body)
    (h : String.ofList (body ++ ['\n']) ∈ lines new) : Shows old new ⟨.inserted, '+' :: body⟩

/-- Each line of the text ends with a line feed, and has no carriage return. -/
def EndsLines (text : String) : Prop :=
  '\r' ∉ text.toList ∧ (text.toList = [] ∨ text.toList.getLast? = some '\n')

instance (text : String) : Decidable (EndsLines text) := inferInstanceAs (Decidable (_ ∧ _))

variable {mark : Char} {line cs : List Char} {role : Role} {text path old new : String}
  {l : RoleLine} {s : Segment} {hunk : Hunk}

/-! ### Texts whose lines end with line feeds -/

theorem exists_body_of_mem_splitFrom (hline : NoBreak line) (hcs : '\r' ∉ cs)
    (hlast : line = [] ∧ cs = [] ∨ cs.getLast? = some '\n') {x : List Char}
    (hx : x ∈ splitFrom line cs) : ∃ body, NoBreak body ∧ x = body ++ ['\n'] := by
  fun_induction splitFrom line cs with
  | case1 line hempty => cases hx
  | case2 line hne =>
    rcases hlast with ⟨rfl, -⟩ | hlast
    · exact absurd rfl hne
    · cases hlast
  | case3 line cs ih => exact absurd List.mem_cons_self hcs
  | case4 line cs hpair ih => exact absurd List.mem_cons_self hcs
  | case5 line cs ih =>
    rcases List.mem_cons.1 hx with rfl | hx
    · exact ⟨line.reverse, noBreak_reverse.2 hline, List.reverse_cons⟩
    · refine ih noBreak_nil (List.not_mem_of_not_mem_cons hcs) ?_ hx
      cases cs with
      | nil => exact .inl ⟨rfl, rfl⟩
      | cons c cs => exact .inr (by simpa using hlast)
  | case6 line c cs hpair hr hn ih =>
    refine ih (noBreak_cons.2 ⟨hr, hn, hline⟩) (List.not_mem_of_not_mem_cons hcs) ?_ hx
    cases cs with
    | nil => exact absurd (by simpa using hlast) hn
    | cons c' cs => exact .inr (by simpa using hlast)

theorem EndsLines.exists_body (h : EndsLines text) {x : String} (hx : x ∈ lines text) :
    ∃ body, NoBreak body ∧ x = String.ofList (body ++ ['\n']) := by
  obtain ⟨cs, hcs, rfl⟩ := List.mem_map.1 (List.mem_toArray.1 hx)
  have hlast : ([] : List Char) = [] ∧ text.toList = [] ∨ text.toList.getLast? = some '\n' :=
    h.2.imp_left fun hnil => ⟨rfl, hnil⟩
  obtain ⟨body, hbody, rfl⟩ := exists_body_of_mem_splitFrom noBreak_nil h.1 hlast hcs
  exact ⟨body, hbody, rfl⟩

theorem showIn_ofList (role : Role) (mark : Char) (body : List Char) :
    showIn role mark (String.ofList (body ++ ['\n'])) = ⟨role, mark :: body⟩ := by
  simp [showIn]

section Stretch

variable {start n : Nat}

theorem EndsLines.exists_of_mem_showIn (h : EndsLines text)
    (hl : l ∈ (stretch (lines text) start n).map (showIn role mark)) :
    ∃ body, NoBreak body ∧ String.ofList (body ++ ['\n']) ∈ lines text ∧
      l = ⟨role, mark :: body⟩ := by
  obtain ⟨x, hx, rfl⟩ := List.mem_map.1 hl
  have hmem := mem_of_mem_stretch hx
  obtain ⟨body, hbody, rfl⟩ := h.exists_body hmem
  exact ⟨body, hbody, hmem, showIn_ofList role mark body⟩

theorem EndsLines.map_line_showIn (h : EndsLines text) :
    ((stretch (lines text) start n).map (showIn role mark)).map RoleLine.line =
      (stretch (lines text) start n).flatMap (shown mark) := by
  have hshown : ∀ x ∈ stretch (lines text) start n,
      shown mark x = [(showIn role mark x).line] := fun x hx => by
    obtain ⟨body, -, rfl⟩ := h.exists_body (mem_of_mem_stretch hx)
    rw [shown, if_pos (isEnded_of_ending String.toList_ofList (.inl rfl)), showIn_ofList,
      String.toList_ofList]
    rfl
  rw [List.map_map, List.flatMap_congr hshown, List.map_eq_flatMap]
  rfl

end Stretch

/-! ### What the lines show -/

section Texts

variable (hold : EndsLines old) (hnew : EndsLines new)

include hold hnew

theorem Segment.shows_of_mem_roleLines (hl : l ∈ s.roleLines (.ofTexts old new)) :
    l.Shows old new := by
  rw [roleLines] at hl
  split at hl
  · obtain ⟨body, hbody, hmem, rfl⟩ := hold.exists_of_mem_showIn hl
    exact .same hbody hmem
  · rcases List.mem_append.1 hl with hl | hl
    · obtain ⟨body, hbody, hmem, rfl⟩ := hold.exists_of_mem_showIn hl
      exact .deleted hbody hmem
    · obtain ⟨body, hbody, hmem, rfl⟩ := hnew.exists_of_mem_showIn hl
      exact .inserted hbody hmem

/-- A line of a hunk shows what its role says. -/
theorem shows_of_mem_hunkLines (hl : l ∈ hunkLines old new) : l.Shows old new := by
  obtain ⟨hunk, -, hl⟩ := List.mem_flatMap.1 hl
  cases hunk with
  | nil => cases hl
  | cons first rest =>
    rcases List.mem_cons.1 hl with rfl | hl
    · exact .range first _
    · obtain ⟨s, -, hl⟩ := List.mem_flatMap.1 hl
      exact Segment.shows_of_mem_roleLines hold hnew hl

end Texts

theorem RoleLine.Shows.noBreak (h : l.Shows old new) : NoBreak l.text := by
  cases h with
  | range first last => exact Hunk.noBreak_rangeLine first last
  | same hbody => exact noBreak_cons.2 ⟨by decide, by decide, hbody⟩
  | deleted hbody => exact noBreak_cons.2 ⟨by decide, by decide, hbody⟩
  | inserted hbody => exact noBreak_cons.2 ⟨by decide, by decide, hbody⟩

theorem RoleLine.Shows.role_ne_name (h : l.Shows old new) : l.role ≠ .name := by
  cases h <;> exact Role.noConfusion

/-- The mark of a line says whether it is inserted or deleted. -/
theorem RoleLine.Shows.isMarked (h : l.Shows old new) :
    isMarked '+' l.line = decide (l.role = .inserted) ∧
      isMarked '-' l.line = decide (l.role = .deleted) := by
  cases h with
  | range first last => simp [Diff.isMarked, RoleLine.line, Hunk.rangeLine]
  | same => exact ⟨rfl, rfl⟩
  | deleted => exact ⟨rfl, rfl⟩
  | inserted => exact ⟨rfl, rfl⟩

/-! ### All lines of a diff -/

section Texts

variable (hold : EndsLines old) (hnew : EndsLines new)

include hold hnew

theorem Segment.map_line_roleLines (s : Segment) :
    (s.roleLines (.ofTexts old new)).map RoleLine.line = s.shown (.ofTexts old new) := by
  rw [roleLines, Segment.shown]
  split
  · exact hold.map_line_showIn
  · rw [List.map_append]
    exact congrArg₂ (· ++ ·) hold.map_line_showIn hnew.map_line_showIn

theorem Hunk.map_line_roleLines (hunk : Hunk) :
    (hunk.roleLines (.ofTexts old new)).map RoleLine.line = hunk.shown (.ofTexts old new) := by
  cases hunk with
  | nil => rfl
  | cons first rest =>
    rw [roleLines, Hunk.shown, Hunk.toList_header, List.map_cons, List.map_flatMap]
    simp only [Segment.map_line_roleLines hold hnew]
    rfl

theorem map_line_hunkLines :
    (hunkLines old new).map RoleLine.line =
      (hunks (Pair.ofTexts old new).segments).flatMap (Hunk.shown (.ofTexts old new)) := by
  rw [hunkLines, List.map_flatMap]
  simp only [Hunk.map_line_roleLines hold hnew]

/-- The lines of a unified diff of texts that differ. -/
theorem splitFrom_unified_eq_roleLines (hpath : NoBreak path.toList) (hne : old ≠ new) :
    splitFrom [] (unified path old new).toList = (roleLines path old new).map RoleLine.line := by
  have hhunks : hunks (Pair.ofTexts old new).segments ≠ [] :=
    fun h => hne (lines_injective (hunks_eq_nil_iff.1 h))
  rw [splitFrom_unified old new path hpath hhunks, roleLines, List.map_append,
    map_line_hunkLines hold hnew]
  rfl

/-- A unified diff of texts that differ consists of its lines. -/
theorem toList_unified (hpath : NoBreak path.toList) (hne : old ≠ new) :
    (unified path old new).toList = (roleLines path old new).flatMap RoleLine.line := by
  have hflatten := flatten_splitFrom [] (unified path old new).toList
  rw [splitFrom_unified_eq_roleLines hold hnew hpath hne, List.reverse_nil, List.nil_append,
    ← List.flatMap_def] at hflatten
  exact hflatten.symm

theorem noBreak_of_mem_roleLines (hpath : NoBreak path.toList)
    (hl : l ∈ roleLines path old new) : NoBreak l.text := by
  rcases List.mem_append.1 hl with hl | hl
  · simp only [List.mem_cons, List.not_mem_nil, or_false] at hl
    rcases hl with rfl | rfl
    · exact noBreak_append.2 ⟨⟨by decide, by decide⟩, hpath⟩
    · exact noBreak_append.2 ⟨⟨by decide, by decide⟩, hpath⟩
  · exact (shows_of_mem_hunkLines hold hnew hl).noBreak

theorem countP_hunkLines :
    (hunkLines old new).countP (·.role = .name) = 0 ∧
      (hunkLines old new).countP (·.role = .inserted) = (Summary.between old new).inserted ∧
      (hunkLines old new).countP (·.role = .deleted) = (Summary.between old new).deleted := by
  have hshows := fun l (hl : l ∈ hunkLines old new) => shows_of_mem_hunkLines hold hnew hl
  have hpath : NoBreak "".toList := noBreak_nil
  have hmarked : ∀ mark, markedLines mark (unified "" old new) =
      (hunkLines old new).countP fun l => isMarked mark l.line := fun mark => by
    rw [markedLines, lines_unified old new "" hpath, ← map_line_hunkLines hold hnew,
      List.countP_map]
    rfl
  obtain ⟨hinserted, hdeleted⟩ := Summary.between_eq_markedLines hpath old new
  rw [hinserted, hdeleted, hmarked, hmarked]
  exact ⟨List.countP_eq_zero.2 fun l hl => by simpa using (hshows l hl).role_ne_name,
    List.countP_congr fun l hl => by rw [(hshows l hl).isMarked.1],
    List.countP_congr fun l hl => by rw [(hshows l hl).isMarked.2]⟩

/-- Two lines name the file, and the summary counts the lines that are inserted or deleted. -/
theorem countP_roleLines (path : String) :
    (roleLines path old new).countP (·.role = .name) = 2 ∧
      (roleLines path old new).countP (·.role = .inserted) = (Summary.between old new).inserted ∧
      (roleLines path old new).countP (·.role = .deleted) = (Summary.between old new).deleted := by
  obtain ⟨hname, hinserted, hdeleted⟩ := countP_hunkLines hold hnew
  simp [roleLines, hname, hinserted, hdeleted]

end Texts

end BlockEdit.Diff
