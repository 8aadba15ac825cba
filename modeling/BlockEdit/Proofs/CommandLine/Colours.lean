import BlockEdit.CommandLine.Screen
import BlockEdit.Proofs.Diff.Roles

/-!
# The colours of a difference

A difference is shown line by line. The role of a line asks for a style: names are bold, ranges
cyan, deleted lines red, inserted ones green, and lines that stay the same plain (`Role.style`). The
style it gets follows from its first characters. Behind the lines that name the file, a line has its
mark there, so the two agree unless the text of an inserted line begins with `++`, or that of a
deleted one with `--`: such a line begins like one that names the file, and is bold
(`diffStyle_of_shows`). A difference is shown in the styles of the roles if it has no such line, and
only then (`showDiff_unified`).
-/

namespace BlockEdit

variable {line body rest : List Char}

/-! ### Lines of a text -/

namespace Text

theorem linesFrom_append (h : '\n' ∉ body) :
    linesFrom line (body ++ rest) = linesFrom (body.reverse ++ line) rest := by
  induction body generalizing line with
  | nil => rfl
  | cons c body ih =>
    have hc : c ≠ '\n' := fun heq => h (heq ▸ List.mem_cons_self)
    rw [List.cons_append, linesFrom, ih (List.not_mem_of_not_mem_cons h), List.reverse_cons,
      List.append_assoc]
    · rfl
    · exact hc

theorem dropFinalReturn_of_not_mem (h : '\r' ∉ line) : dropFinalReturn line = line :=
  if_neg fun hlast => h (List.mem_of_getLast? hlast)

/-- A line with no ending but a line feed is the first one. -/
theorem lines_ended (h : Diff.NoBreak body) :
    lines (body ++ ['\n'] ++ rest) = body :: lines rest := by
  rw [lines, List.append_assoc, linesFrom_append h.2, List.append_nil, List.singleton_append,
    linesFrom, List.reverse_reverse, dropFinalReturn_of_not_mem h.1]
  rfl

end Text

namespace Diff

theorem lines_flatMap_line {ls : List RoleLine} (h : ∀ l ∈ ls, NoBreak l.text) :
    Text.lines (ls.flatMap RoleLine.line) = ls.map RoleLine.text := by
  induction ls with
  | nil => rfl
  | cons l ls ih =>
    obtain ⟨hl, hls⟩ := List.forall_mem_cons.1 h
    rw [List.flatMap_cons, RoleLine.line, Text.lines_ended hl, ih hls, List.map_cons]

/-- A changed line that begins like a line that names the file. -/
def RoleLine.IsMistakable (l : RoleLine) : Prop :=
  l.role = .inserted ∧ "+++".toList <+: l.text ∨ l.role = .deleted ∧ "---".toList <+: l.text

instance (l : RoleLine) : Decidable l.IsMistakable := inferInstanceAs (Decidable (_ ∨ _))

/-- The style that a role asks for. -/
def Role.style : Role → CommandLine.Style
  | .name => .bold
  | .range => .cyan
  | .same => .plain
  | .deleted => .red
  | .inserted => .green

end Diff

namespace CommandLine

open Diff

/-- A line of a difference in a style. -/
def showLine (colours : Bool) (style : Style) (l : RoleLine) : String :=
  style.paint colours (String.ofList l.text) ++ "\n"

/-- The lines of a difference, each in the style of its role. -/
def showByRole (colours : Bool) (ls : List RoleLine) : String :=
  String.join (ls.map fun l => showLine colours l.role.style l)

variable {path old new : String} {l : RoleLine}

/-! ### Styles of lines -/

/-- The style of a line as its first characters decide it, one after the other. -/
theorem diffStyle_eq (line : List Char) :
    diffStyle line =
      if "+++".toList <+: line ∨ "---".toList <+: line then .bold
      else if "+".toList <+: line then .green
      else if "-".toList <+: line then .red
      else if "@@".toList <+: line then .cyan
      else .plain := by
  fun_cases diffStyle line with
  | case1 => simp
  | case2 => simp
  | case3 cs hcs =>
    have hname : ¬['+', '+'] <+: cs := fun ⟨tail, htail⟩ => hcs tail htail.symm
    simp [hname]
  | case4 cs hcs =>
    have hname : ¬['-', '-'] <+: cs := fun ⟨tail, htail⟩ => hcs tail htail.symm
    simp [hname]
  | case5 => simp
  | case6 line _ _ hinserted hdeleted hrange =>
    have hne : ∀ {cs : List Char}, ¬ '+' :: cs <+: line ∧ ¬ '-' :: cs <+: line :=
      ⟨fun ⟨tail, htail⟩ => hinserted _ htail.symm, fun ⟨tail, htail⟩ => hdeleted _ htail.symm⟩
    have hat : ¬['@', '@'] <+: line := fun ⟨tail, htail⟩ => hrange tail htail.symm
    simp [hne, hat]

/-- A line of a hunk has the style of its role, unless it begins like a line that names the file. -/
theorem diffStyle_of_shows (h : l.Shows old new) :
    diffStyle l.text = if l.IsMistakable then .bold else l.role.style := by
  rw [diffStyle_eq]
  cases h with
  | range first last => simp [Hunk.rangeLine, RoleLine.IsMistakable, Role.style]
  | same => simp [RoleLine.IsMistakable, Role.style]
  | deleted => simp [RoleLine.IsMistakable, Role.style]
  | inserted => simp [RoleLine.IsMistakable, Role.style]

/-! ### What is shown -/

theorem eq_of_flatMap_eq {α : Type} {f g : α → List Char} {xs : List α}
    (h : ∀ x ∈ xs, f x = g x ∨ ∀ cs ds, f x ++ cs ≠ g x ++ ds) (heq : xs.flatMap f = xs.flatMap g) :
    ∀ x ∈ xs, f x = g x := by
  induction xs with
  | nil => exact fun x hx => nomatch hx
  | cons x xs ih =>
    obtain ⟨hx, hxs⟩ := List.forall_mem_cons.1 h
    rw [List.flatMap_cons, List.flatMap_cons] at heq
    have hhead : f x = g x := hx.resolve_right fun hne => hne _ _ heq
    rw [hhead] at heq
    exact List.forall_mem_cons.2 ⟨hhead, ih hxs (List.append_cancel_left heq)⟩

/-- A line that is bold does not look like one in the colour of a change. -/
theorem showLine_bold_ne (h : l.role = .inserted ∨ l.role = .deleted) (cs ds : List Char) :
    (showLine true .bold l).toList ++ cs ≠ (showLine true l.role.style l).toList ++ ds := by
  rcases h with h | h
  · simp [h, showLine, Role.style, Style.paint, Style.code?, turnOn]
  · simp [h, showLine, Role.style, Style.paint, Style.code?, turnOn]

section Texts

variable (hpath : NoBreak path.toList) (hold : EndsLines old) (hnew : EndsLines new)

include hold hnew

theorem diffStyle_of_mem (hl : l ∈ roleLines path old new) :
    diffStyle l.text = if l.IsMistakable then .bold else l.role.style := by
  rcases List.mem_append.1 hl with hl | hl
  · simp only [List.mem_cons, List.not_mem_nil, or_false] at hl
    rcases hl with rfl | rfl
    · simp [diffStyle_eq, RoleLine.IsMistakable, Role.style]
    · simp [diffStyle_eq, RoleLine.IsMistakable, Role.style]
  · exact diffStyle_of_shows (shows_of_mem_hunkLines hold hnew hl)

include hpath

/-- A difference is shown by its lines. -/
theorem showDiff_eq (hne : old ≠ new) (colours : Bool) :
    showDiff colours (unified path old new) =
      String.join ((roleLines path old new).map fun l =>
        showLine colours (if l.IsMistakable then .bold else l.role.style) l) := by
  have hlines : Text.lines (unified path old new).toList =
      (roleLines path old new).map RoleLine.text := by
    rw [toList_unified hold hnew hpath hne]
    exact lines_flatMap_line fun l hl => noBreak_of_mem_roleLines hold hnew hpath hl
  rw [showDiff, hlines, List.map_map]
  refine congrArg String.join (List.map_congr_left fun l hl => ?_)
  rw [Function.comp_apply, diffStyle_of_mem hold hnew hl, showLine]

theorem showDiff_eq_showByRole_iff (hne : old ≠ new) :
    showDiff true (unified path old new) = showByRole true (roleLines path old new) ↔
      ∀ l ∈ roleLines path old new, ¬l.IsMistakable := by
  have hbold : ∀ l : RoleLine, l.IsMistakable → ∀ cs ds : List Char,
      (showLine true .bold l).toList ++ cs ≠ (showLine true l.role.style l).toList ++ ds :=
    fun l h => showLine_bold_ne (h.imp And.left And.left)
  rw [showDiff_eq hpath hold hnew hne, showByRole]
  constructor
  · intro heq
    have hflat := congrArg String.toList heq
    rw [String.toList_join, String.toList_join, List.flatMap_map, List.flatMap_map] at hflat
    -- The first line that is mistakable would be the first difference of the two texts.
    have hsame := eq_of_flatMap_eq (fun l _ => ?_) hflat
    · intro l hl hmistakable
      have hline := hsame l hl
      rw [if_pos hmistakable] at hline
      exact hbold l hmistakable [] [] (congrArg (· ++ []) hline)
    · by_cases hl : l.IsMistakable
      · exact .inr (by simpa only [if_pos hl] using hbold l hl)
      · exact .inl (by rw [if_neg hl])
  · intro h
    exact congrArg String.join (List.map_congr_left fun l hl => by rw [if_neg (h l hl)])

/-- A difference is shown line by line. Two of its lines name the file, and each line of a hunk
shows what its role says; as many are inserted and deleted as the summary says. A changed line that
begins like a line that names the file is bold; each other line has the style of its role. With
colours, what is shown is right just when there is no such line. -/
theorem showDiff_unified (hne : old ≠ new) :
    (unified path old new).toList = (roleLines path old new).flatMap RoleLine.line ∧
      ((roleLines path old new).countP (·.role = .name) = 2 ∧
        (roleLines path old new).countP (·.role = .inserted) =
          (Summary.between old new).inserted ∧
        (roleLines path old new).countP (·.role = .deleted) =
          (Summary.between old new).deleted) ∧
      (∀ l ∈ hunkLines old new, l.Shows old new) ∧
      (∀ colours, showDiff colours (unified path old new) =
        String.join ((roleLines path old new).map fun l =>
          showLine colours (if l.IsMistakable then .bold else l.role.style) l)) ∧
      (showDiff true (unified path old new) = showByRole true (roleLines path old new) ↔
        ∀ l ∈ roleLines path old new, ¬l.IsMistakable) :=
  ⟨toList_unified hold hnew hpath hne, countP_roleLines hold hnew path,
    fun _ hl => shows_of_mem_hunkLines hold hnew hl, showDiff_eq hpath hold hnew hne,
    showDiff_eq_showByRole_iff hpath hold hnew hne⟩

end Texts

/-- A line that takes the place of another one is shown in green, behind that one in red. -/
theorem showDiff_unified_replaced :
    let old := "x\n"
    let new := "y\n"
    (NoBreak "a.txt".toList ∧ EndsLines old ∧ EndsLines new ∧ old ≠ new) ∧
      (Summary.between old new).inserted = 1 ∧
      (roleLines "a.txt" old new).countP (·.role = .inserted) = 1 ∧
      (∀ l ∈ roleLines "a.txt" old new, ¬l.IsMistakable) ∧
      showDiff true (unified "a.txt" old new) = showByRole true (roleLines "a.txt" old new) := by
  intro old new
  have hpath : NoBreak "a.txt".toList := ⟨by decide, by decide⟩
  have hold : EndsLines old := by decide
  have hnew : EndsLines new := by decide
  have hne : old ≠ new := by decide
  have hone : (Summary.between old new).inserted = 1 := by decide +kernel
  have hclear : ∀ l ∈ roleLines "a.txt" old new, ¬l.IsMistakable := by decide +kernel
  obtain ⟨-, ⟨-, hinserted, -⟩, -, -, hroles⟩ := showDiff_unified hpath hold hnew hne
  exact ⟨⟨hpath, hold, hnew, hne⟩, hone, hinserted.trans hone, hclear, hroles.2 hclear⟩

/-- An inserted line whose text begins with two pluses is shown like a line that names the file, and
so is a deleted one whose text begins with two minuses. -/
theorem change_shown_bold :
    (EndsLines "x\n" ∧ EndsLines "++y\nx\n" ∧
      ⟨.inserted, "+++y".toList⟩ ∈ hunkLines "x\n" "++y\nx\n" ∧
      showDiff true (unified "a.txt" "x\n" "++y\nx\n") =
        "\x1b[1m--- a/a.txt\x1b[0m\n\x1b[1m+++ b/a.txt\x1b[0m\n\x1b[36m@@ -1 +1,2 @@\x1b[0m\n" ++
          "\x1b[1m+++y\x1b[0m\n x\n" ∧
      showByRole true (roleLines "a.txt" "x\n" "++y\nx\n") =
        "\x1b[1m--- a/a.txt\x1b[0m\n\x1b[1m+++ b/a.txt\x1b[0m\n\x1b[36m@@ -1 +1,2 @@\x1b[0m\n" ++
          "\x1b[32m+++y\x1b[0m\n x\n") ∧
    EndsLines "--x\ny\n" ∧ EndsLines "y\n" ∧
      ⟨.deleted, "---x".toList⟩ ∈ hunkLines "--x\ny\n" "y\n" ∧
      diffStyle "---x".toList = .bold := by
  decide +kernel

end CommandLine

end BlockEdit
