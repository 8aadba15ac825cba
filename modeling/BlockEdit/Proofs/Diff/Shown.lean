import BlockEdit.Diff.Unified
import Mathlib.Data.List.Basic

/-!
# The lines of a unified diff

A unified diff is a text with lines of its own. Each line of a hunk is one of them, behind its mark,
and a line without an ending is followed by one that says so (`shown`). The lines of the diff are
those of its hunks behind the two that name the file (`splitFrom_unified`): the text of a line has
no line ending but its own, and no mark is a line feed, which could make one ending of two.
-/

namespace BlockEdit.Diff

variable {c mark : Char} {line body cs rest : List Char} {text : String}

/-! ### Lines of texts -/

/-- There is no line ending among the characters. -/
def NoBreak (cs : List Char) : Prop := '\r' ∉ cs ∧ '\n' ∉ cs

/-- A line of a text: it has one ending, or none. -/
inductive IsLine : List Char → Prop
  | ended {body ending : List Char} (hbody : NoBreak body)
    (h : ending = ['\n'] ∨ ending = ['\r', '\n'] ∨ ending = ['\r']) : IsLine (body ++ ending)
  | last {body : List Char} (hbody : NoBreak body) : IsLine body

theorem noBreak_nil : NoBreak [] := by simp [NoBreak]

theorem noBreak_cons : NoBreak (c :: cs) ↔ c ≠ '\r' ∧ c ≠ '\n' ∧ NoBreak cs := by
  simp only [NoBreak, List.mem_cons, not_or]
  constructor
  · rintro ⟨⟨hr, hr'⟩, hn, hn'⟩
    exact ⟨Ne.symm hr, Ne.symm hn, hr', hn'⟩
  · rintro ⟨hr, hn, hr', hn'⟩
    exact ⟨⟨Ne.symm hr, hr'⟩, Ne.symm hn, hn'⟩

theorem noBreak_append {ds : List Char} : NoBreak (cs ++ ds) ↔ NoBreak cs ∧ NoBreak ds := by
  simp only [NoBreak, List.mem_append, not_or]
  tauto

theorem splitFrom_cons (hr : c ≠ '\r') (hn : c ≠ '\n') :
    splitFrom line (c :: cs) = splitFrom (c :: line) cs := by
  rw [splitFrom]
  · exact fun _ h _ => hr h
  · exact hr
  · exact hn

theorem splitFrom_append (h : NoBreak body) :
    splitFrom line (body ++ rest) = splitFrom (body.reverse ++ line) rest := by
  induction body generalizing line with
  | nil => rfl
  | cons c body ih =>
    obtain ⟨hr, hn, h⟩ := noBreak_cons.1 h
    rw [List.cons_append, splitFrom_cons hr hn, ih h]
    simp

/-- A line with an ending is the first one, unless a line feed behind it makes its ending a longer
one. -/
theorem splitFrom_ended {ending : List Char} (hbody : NoBreak body)
    (h : ending = ['\n'] ∨ ending = ['\r', '\n'] ∨ ending = ['\r'])
    (hrest : rest.head? ≠ some '\n') :
    splitFrom [] (body ++ ending ++ rest) = (body ++ ending) :: splitFrom [] rest := by
  rw [List.append_assoc, splitFrom_append hbody, List.append_nil]
  rcases h with rfl | rfl | rfl
  · simp [splitFrom]
  · simp [splitFrom]
  · cases rest with
    | nil => simp [splitFrom]
    | cons c rest =>
      rw [List.singleton_append, splitFrom]
      · simp
      · rintro cs heq
        cases heq
        exact hrest rfl

theorem noBreak_reverse : NoBreak cs.reverse ↔ NoBreak cs := by simp [NoBreak]

theorem isLine_of_mem_splitFrom (hline : NoBreak line) {x : List Char}
    (hx : x ∈ splitFrom line cs) : IsLine x := by
  have hended : ∀ {line ending : List Char}, NoBreak line →
      ending = ['\n'] ∨ ending = ['\r', '\n'] ∨ ending = ['\r'] →
      IsLine (line.reverse ++ ending) := fun hline h => .ended (noBreak_reverse.2 hline) h
  fun_induction splitFrom line cs with
  | case1 line hempty => cases hx
  | case2 line hne =>
    rw [List.mem_singleton.1 hx]
    exact .last (noBreak_reverse.2 hline)
  | case3 line cs ih =>
    rcases List.mem_cons.1 hx with rfl | hx
    · rw [List.reverse_cons, List.reverse_cons, List.append_assoc]
      exact hended hline (by simp)
    · exact ih noBreak_nil hx
  | case4 line cs hcs ih =>
    rcases List.mem_cons.1 hx with rfl | hx
    · rw [List.reverse_cons]
      exact hended hline (by simp)
    · exact ih noBreak_nil hx
  | case5 line cs ih =>
    rcases List.mem_cons.1 hx with rfl | hx
    · rw [List.reverse_cons]
      exact hended hline (by simp)
    · exact ih noBreak_nil hx
  | case6 line c cs hpair hr hn ih =>
    exact ih (noBreak_cons.2 ⟨hr, hn, hline⟩) hx

theorem isLine_of_mem_lines {x : String} (hx : x ∈ lines text) : IsLine x.toList := by
  obtain ⟨cs, hcs, rfl⟩ := List.mem_map.1 (List.mem_toArray.1 hx)
  rw [String.toList_ofList]
  exact isLine_of_mem_splitFrom noBreak_nil hcs

/-! ### Texts that are split into lines -/

/-- The text consists of the given lines, whatever stands behind it, if that is no line feed. -/
def Splits (cs : List Char) (ls : List (List Char)) : Prop :=
  ∀ rest : List Char, rest.head? ≠ some '\n' →
    (cs ++ rest).head? ≠ some '\n' ∧ splitFrom [] (cs ++ rest) = ls ++ splitFrom [] rest

section Splits

variable {ds : List Char} {ls ms : List (List Char)}

theorem splits_nil : Splits [] [] := fun _ hrest => ⟨hrest, rfl⟩

theorem Splits.append (h : Splits cs ls) (h' : Splits ds ms) : Splits (cs ++ ds) (ls ++ ms) := by
  intro rest hrest
  obtain ⟨hhead', hsplit'⟩ := h' rest hrest
  obtain ⟨hhead, hsplit⟩ := h (ds ++ rest) hhead'
  rw [List.append_assoc]
  exact ⟨hhead, by rw [hsplit, hsplit', List.append_assoc]⟩

theorem splits_flatMap {α : Type} {f : α → List Char} {g : α → List (List Char)} {xs : List α}
    (h : ∀ x ∈ xs, Splits (f x) (g x)) : Splits (xs.flatMap f) (xs.flatMap g) := by
  induction xs with
  | nil => exact splits_nil
  | cons x xs ih =>
    obtain ⟨hx, hxs⟩ := List.forall_mem_cons.1 h
    rw [List.flatMap_cons, List.flatMap_cons]
    exact hx.append (ih hxs)

theorem splits_ended {ending : List Char} (hne : body ≠ []) (hbody : NoBreak body)
    (h : ending = ['\n'] ∨ ending = ['\r', '\n'] ∨ ending = ['\r']) :
    Splits (body ++ ending) [body ++ ending] := by
  refine fun rest hrest => ⟨fun hhead => ?_, splitFrom_ended hbody h hrest⟩
  obtain ⟨c, cs, rfl⟩ := List.exists_cons_of_ne_nil hne
  exact (noBreak_cons.1 hbody).2.1 (Option.some.inj hhead)

end Splits

/-! ### What a diff shows -/

/-- The lines of a diff that show a line behind a mark. -/
def shown (mark : Char) (line : String) : List (List Char) :=
  if isEnded line then [mark :: line.toList]
  else [mark :: line.toList ++ ['\n'], noNewlineMark.toList.tail]

/-- `n` lines of a text, from `start` on. -/
def stretch (lines : Array String) (start n : Nat) : List String := (lines.toList.drop start).take n

theorem mem_of_mem_stretch {ls : Array String} {start n : Nat} {x : String}
    (h : x ∈ stretch ls start n) : x ∈ ls :=
  Array.mem_toList_iff.1 (List.mem_of_mem_drop (List.mem_of_mem_take h))

/-- The lines of a text from one place up to another. -/
def between (lines : Array String) (i j : Nat) : List String := (lines.toList.drop i).take (j - i)

/-- The lines of a diff that show a segment. -/
def Segment.shown (p : Pair) (s : Segment) : List (List Char) :=
  if s.same then (stretch p.old s.oldStart s.oldSize).flatMap (Diff.shown ' ')
  else (stretch p.old s.oldStart s.oldSize).flatMap (Diff.shown '-') ++
    (stretch p.new s.newStart s.newSize).flatMap (Diff.shown '+')

/-- The lines of a diff that show a hunk. -/
def Hunk.shown (p : Pair) : Hunk → List (List Char)
  | [] => []
  | first :: rest =>
    (Hunk.header first (rest.getLastD first)).toList ::
      (first :: rest).flatMap fun s => s.shown p

/-- The lines of a diff that name the file. -/
def nameLines (path : String) : List (List Char) :=
  ["--- a/".toList ++ path.toList ++ ['\n'], "+++ b/".toList ++ path.toList ++ ['\n']]

theorem isEnded_of_ending {line : String} {ending : List Char}
    (hline : line.toList = body ++ ending)
    (h : ending = ['\n'] ∨ ending = ['\r', '\n'] ∨ ending = ['\r']) : isEnded line = true := by
  rw [isEnded, hline]
  rcases h with rfl | rfl | rfl <;> simp

theorem isEnded_of_noBreak {line : String} (h : NoBreak line.toList) : isEnded line = false := by
  have hlast : ∀ c, line.toList.getLast? = some c → c ≠ '\n' ∧ c ≠ '\r' := fun c hc => by
    have hmem := List.mem_of_getLast? hc
    exact ⟨fun hn => h.2 (hn ▸ hmem), fun hr => h.1 (hr ▸ hmem)⟩
  rw [isEnded, Bool.or_eq_false_iff]
  exact ⟨decide_eq_false fun hc => (hlast _ hc).1 rfl, decide_eq_false fun hc => (hlast _ hc).2 rfl⟩

theorem splits_lineText {m : String} (hm : m.toList = [mark]) (hmark : NoBreak [mark])
    {line : String} (h : IsLine line.toList) :
    Splits (lineText m line).toList (shown mark line) := by
  have htext : (lineText m line).toList =
      mark :: line.toList ++ if isEnded line then [] else noNewlineMark.toList := by
    rw [lineText, String.toList_append, String.toList_append, hm]
    split <;> rfl
  rw [htext, shown]
  generalize hcs : line.toList = cs at h
  cases h with
  | @ended body ending hbody hending =>
    rw [isEnded_of_ending hcs hending, if_pos rfl, if_pos rfl, List.append_nil]
    exact splits_ended (List.cons_ne_nil _ _) (noBreak_append.2 ⟨hmark, hbody⟩) hending
  | last hbody =>
    have hline : Splits (mark :: cs ++ ['\n']) [mark :: cs ++ ['\n']] :=
      splits_ended (List.cons_ne_nil mark cs) (noBreak_append.2 ⟨hmark, hbody⟩) (.inl rfl)
    have hnote : Splits ("\\ No newline at end of file".toList ++ ['\n'])
        ["\\ No newline at end of file".toList ++ ['\n']] :=
      splits_ended (by decide) ⟨by decide, by decide⟩ (.inl rfl)
    rw [isEnded_of_noBreak (by rwa [hcs])]
    have happend := hline.append hnote
    rw [List.append_assoc] at happend
    exact happend

/-! ### The text of hunks -/

theorem toList_linesText (m : String) (lines : Array String) (start n : Nat) :
    (linesText m lines start n).toList =
      (stretch lines start n).flatMap fun line => (lineText m line).toList := by
  rw [linesText, String.toList_join, List.flatMap_map, Array.toList_extract,
    List.extract_eq_take_drop, Nat.add_sub_cancel_left, stretch]

theorem splits_linesText {m : String} (hm : m.toList = [mark]) (hmark : NoBreak [mark])
    (start n : Nat) :
    Splits (linesText m (lines text) start n).toList
      ((stretch (lines text) start n).flatMap (shown mark)) := by
  rw [toList_linesText]
  exact splits_flatMap fun line hline =>
    splits_lineText hm hmark (isLine_of_mem_lines (mem_of_mem_stretch hline))

section Texts

variable (old new path : String)

theorem Segment.splits_text (s : Segment) :
    Splits (s.text (.ofTexts old new)).toList (s.shown (.ofTexts old new)) := by
  rw [Segment.text, Segment.shown]
  split
  · exact splits_linesText rfl ⟨by decide, by decide⟩ _ _
  · rw [String.toList_append]
    exact (splits_linesText rfl ⟨by decide, by decide⟩ _ _).append
      (splits_linesText rfl ⟨by decide, by decide⟩ _ _)

theorem toList_rangeText (start stop : Nat) :
    (rangeText start stop).toList =
      if stop - start = 1 then Nat.toDigits 10 (start + 1)
      else if stop - start = 0 then Nat.toDigits 10 start ++ [',', '0']
      else Nat.toDigits 10 (start + 1) ++ ',' :: Nat.toDigits 10 (stop - start) := by
  rw [rangeText]
  split_ifs <;> simp [toString]

theorem noBreak_rangeText (start stop : Nat) : NoBreak (rangeText start stop).toList := by
  have hdigits : ∀ n, NoBreak (Nat.toDigits 10 n) := fun n => by
    refine ⟨fun h => ?_, fun h => ?_⟩ <;>
      exact absurd (Nat.isDigit_of_mem_toDigits (by decide) (by decide) h) (by decide)
  rw [toList_rangeText]
  split_ifs
  · exact hdigits _
  · exact noBreak_append.2 ⟨hdigits _, by decide, by decide⟩
  · exact noBreak_append.2 ⟨hdigits _, noBreak_cons.2 ⟨by decide, by decide, hdigits _⟩⟩

/-- The line that opens a hunk, without its ending. -/
def Hunk.rangeLine (first last : Segment) : String :=
  "@@ -" ++ rangeText first.oldStart last.oldStop ++ " +" ++
    rangeText first.newStart last.newStop ++ " @@"

theorem Hunk.toList_header (first last : Segment) :
    (Hunk.header first last).toList = (Hunk.rangeLine first last).toList ++ ['\n'] := by
  simp [Hunk.header, Hunk.rangeLine]

theorem Hunk.noBreak_rangeLine (first last : Segment) :
    NoBreak (Hunk.rangeLine first last).toList := by
  simp only [Hunk.rangeLine, String.toList_append, noBreak_append]
  exact ⟨⟨⟨⟨⟨by decide, by decide⟩, noBreak_rangeText _ _⟩, by decide, by decide⟩,
    noBreak_rangeText _ _⟩, by decide, by decide⟩

theorem Hunk.splits_header (first last : Segment) :
    Splits (Hunk.header first last).toList [(Hunk.header first last).toList] := by
  rw [Hunk.toList_header]
  exact splits_ended (by simp [Hunk.rangeLine]) (Hunk.noBreak_rangeLine first last) (.inl rfl)

theorem Hunk.splits_text (hunk : Hunk) :
    Splits (hunk.text (.ofTexts old new)).toList (hunk.shown (.ofTexts old new)) := by
  cases hunk with
  | nil => exact splits_nil
  | cons first rest =>
    rw [Hunk.text, Hunk.shown, String.toList_append, String.toList_join, List.flatMap_map]
    exact (Hunk.splits_header _ _).append (splits_flatMap fun s _ => s.splits_text old new)

/-- The lines of a unified diff that shows something. -/
theorem splitFrom_unified (hpath : NoBreak path.toList)
    (hne : hunks (Pair.ofTexts old new).segments ≠ []) :
    splitFrom [] (unified path old new).toList =
      nameLines path ++
        (hunks (Pair.ofTexts old new).segments).flatMap (Hunk.shown (.ofTexts old new)) := by
  have hname : ∀ m : String, m.toList ≠ [] → NoBreak m.toList →
      Splits (m.toList ++ path.toList ++ ['\n']) [m.toList ++ path.toList ++ ['\n']] :=
    fun m hne hm => splits_ended (by simp [hne]) (noBreak_append.2 ⟨hm, hpath⟩) (.inl rfl)
  have hold := hname "--- a/" (by decide) ⟨by decide, by decide⟩
  have hnew := hname "+++ b/" (by decide) ⟨by decide, by decide⟩
  have hheader : (fileHeader path).toList =
      "--- a/".toList ++ path.toList ++ ['\n'] ++ ("+++ b/".toList ++ path.toList ++ ['\n']) := by
    simp [fileHeader]
  have hhunks := fun hunks : List Hunk =>
    splits_flatMap fun hunk (_ : hunk ∈ hunks) => Hunk.splits_text old new hunk
  rw [unified]
  generalize Pair.ofTexts old new = p at hhunks hne ⊢
  cases hs : hunks p.segments with
  | nil => exact absurd hs hne
  | cons hunk hs' =>
    obtain ⟨-, hsplit⟩ := ((hold.append hnew).append (hhunks (hunk :: hs'))) [] (by simp)
    simp only [String.toList_append, String.toList_join, List.flatMap_map, hheader]
    rw [List.append_nil] at hsplit
    rw [hsplit]
    simp [splitFrom, nameLines]

/-- The lines of a unified diff behind the two that name the file. -/
theorem lines_unified (hpath : NoBreak path.toList) :
    (splitFrom [] (unified path old new).toList).drop 2 =
      (hunks (Pair.ofTexts old new).segments).flatMap (Hunk.shown (.ofTexts old new)) := by
  by_cases hne : hunks (Pair.ofTexts old new).segments = []
  · rw [unified, hne]
    rfl
  · rw [splitFrom_unified old new path hpath hne]
    rfl

end Texts

end BlockEdit.Diff
