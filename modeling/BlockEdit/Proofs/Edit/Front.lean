import BlockEdit.Proofs.Edit.Anchored
import BlockEdit.Proofs.Text.Greedy

/-!
# What stands in front of an edit

An edit changes a text from one place on: where its content goes, where its block begins, or where
its span begins. A search from left to right does not see what comes behind a match, so a match that
ends in front of that place is found at the same offset, with the same number, in the edited text.
It does not matter whether the new text holds the marker or makes one together with what stands
around it.

* `place`: the offset from which on an edit changes a text;
* `exists_split_of_apply`: an edit as a change behind its place;
* `find_of_apply`, `find_of_applyFrom`: the anchors in front of one edit and of a list of edits;
* `anchors_in_front`: the same, with the matches of the edit's own marker.
-/

namespace BlockEdit.Edit

/-- The offset from which on an edit changes a text. -/
def place (text : String) : Edit → Except DocumentError Nat
  | .insert marker occurrence placement _ =>
    (Anchor.find text marker occurrence).map fun start =>
      Anchor.insertionPoint start marker placement
  | .replaceBlock marker occurrence tokens _ =>
    (Block.locateNth text marker occurrence tokens).map Span.start
  | .replaceSpan span _ => .ok span.start

/-- Carried out one after another, the edits change the text at the offset `a` or behind it. -/
def ChangeBehind (a : Nat) : String → List Edit → Prop
  | _, [] => True
  | text, edit :: edits => ∀ b out, edit.place text = .ok b → edit.apply text = .ok out →
    a ≤ b ∧ ChangeBehind a out edits

variable {text out marker : String} {edit : Edit} {edits : List Edit} {k n a : Nat}

/-- An edit comes to the replacement of a span that begins at its place. -/
theorem exists_span_of_apply (h : edit.apply text = .ok out) :
    ∃ (span : Span) (replacement : String), edit.place text = .ok span.start ∧
      span.replace text replacement = .ok out := by
  cases edit with
  | insert marker occurrence placement content =>
    obtain ⟨start, hfind, hspan⟩ := exists_find_of_apply_insert h
    exact ⟨_, content, by rw [place, hfind]; rfl, hspan⟩
  | replaceBlock marker occurrence tokens replacement =>
    obtain ⟨start, e, hfind, he, hspan⟩ := exists_locateEnd_of_apply_replaceBlock h
    refine ⟨_, replacement, ?_, hspan⟩
    simp only [place, Block.locateNth, hfind, Block.locate, he]
    rfl
  | replaceSpan span replacement => exact ⟨span, replacement, rfl, h⟩

/-- An edit leaves what stands in front of its place. -/
theorem exists_split_of_apply (h : edit.apply text = .ok out) :
    ∃ front rest rest', text.toList = front ++ rest ∧ out.toList = front ++ rest' ∧
      edit.place text = .ok (Text.byteSize front) := by
  obtain ⟨span, replacement, hplace, hspan⟩ := exists_span_of_apply h
  obtain ⟨front, middle, rest, htext, rfl, hout⟩ := Span.exists_split_of_replace hspan
  exact ⟨front, _, _, htext, hout, hplace⟩

/-- A match in front of the place of an edit keeps its number and its offset. -/
theorem find_of_apply (h : edit.apply text = .ok out) (hplace : edit.place text = .ok a)
    (hfind : Anchor.find text marker k = .ok n) (hle : n + marker.utf8ByteSize ≤ a) :
    Anchor.find out marker k = .ok n := by
  obtain ⟨front, rest, rest', htext, hout, hplace'⟩ := exists_split_of_apply h
  obtain rfl := Except.ok.inj (hplace.symm.trans hplace')
  exact Anchor.find_of_front htext hout hfind hle

/-- A match in front of all changes of a list of edits keeps its number and its offset. -/
theorem find_of_applyFrom {m : Nat} (h : applyFrom m text edits = .ok out)
    (hbehind : ChangeBehind a text edits) (hfind : Anchor.find text marker k = .ok n)
    (hle : n + marker.utf8ByteSize ≤ a) : Anchor.find out marker k = .ok n := by
  -- After each edit the match is there and the edits that are left change the text behind it.
  induction edits generalizing m text with
  | nil =>
    obtain rfl := Except.ok.inj h
    exact hfind
  | cons edit edits ih =>
    cases happly : edit.apply text with
    | error cause => simp [applyFrom, happly] at h
    | ok changed =>
      obtain ⟨front, -, -, -, -, hplace⟩ := exists_split_of_apply happly
      obtain ⟨hfront, hnext⟩ := hbehind _ _ hplace happly
      have hkept := find_of_apply happly hplace hfind (hle.trans hfront)
      simp only [applyFrom, happly] at h
      exact ih h hnext hkept

/-- An edit that succeeds has a place, and each match of any marker that ends in front of this place
is found with the same number at the same offset in the edited text; so it is with a list of edits
and a match in front of all their places. In particular the first matches of its marker stay where
they are when an insertion puts its content behind the last of them, or in front of the next one. -/
theorem anchors_in_front (text : String) :
    (∀ (edit : Edit) out, edit.apply text = .ok out → ∃ a, edit.place text = .ok a ∧
      ∀ marker k n, Anchor.find text marker k = .ok n → n + marker.utf8ByteSize ≤ a →
        Anchor.find out marker k = .ok n) ∧
    (∀ edits out a, applyAll text edits = .ok out → ChangeBehind a text edits →
      ∀ marker k n, Anchor.find text marker k = .ok n → n + marker.utf8ByteSize ≤ a →
        Anchor.find out marker k = .ok n) ∧
    (∀ marker occurrence content out,
      (insert marker occurrence .after content).apply text = .ok out →
      ∀ k, 1 ≤ k → k ≤ occurrence →
        ∃ n, Anchor.find text marker k = .ok n ∧ Anchor.find out marker k = .ok n) ∧
    ∀ marker occurrence content out,
      (insert marker occurrence .before content).apply text = .ok out →
      ∀ k, 1 ≤ k → k < occurrence →
        ∃ n, Anchor.find text marker k = .ok n ∧ Anchor.find out marker k = .ok n := by
  refine ⟨fun edit out h => ?_, fun edits out a h hbehind marker k n => ?_,
    fun marker occurrence content out h k hpos hle => ?_,
    fun marker occurrence content out h k hpos hlt => ?_⟩
  · obtain ⟨front, -, -, -, -, hplace⟩ := exists_split_of_apply h
    exact ⟨_, hplace, fun marker k n => find_of_apply h hplace⟩
  · exact find_of_applyFrom h hbehind
  · obtain ⟨start, hstart, -⟩ := exists_find_of_apply_insert h
    obtain ⟨n, hn⟩ := Anchor.exists_find_of_le hstart hpos hle
    have hplace : (insert marker occurrence .after content).place text =
        .ok (start + marker.utf8ByteSize) := by rw [place, hstart]; rfl
    have := Anchor.find_le hn hstart hle
    exact ⟨n, hn, find_of_apply h hplace hn (by omega)⟩
  · obtain ⟨start, hstart, -⟩ := exists_find_of_apply_insert h
    obtain ⟨n, hn⟩ := Anchor.exists_find_of_le hstart hpos hlt.le
    have hplace : (insert marker occurrence .before content).place text = .ok start := by
      rw [place, hstart]; rfl
    exact ⟨n, hn, find_of_apply h hplace hn (Anchor.find_add_le hn hstart hlt)⟩

/-- The replacement of a block that makes a new match together with what stands in front of it, an
insertion behind the first match and one in front of the second, and two edits one after another. -/
theorem anchors_in_front_new_match :
    let text := "aa-aa<b>x</b>"
    let block := replaceBlock "<b>" 1 (.element "b") "a"
    let edits := [block, insert "aa" 2 .after "a"]
    block.apply text = .ok "aa-aaa" ∧ block.place text = .ok 5 ∧
      Anchor.find text "aa" 2 = .ok 3 ∧ Anchor.find "aa-aaa" "aa" 2 = .ok 3 ∧
      (∃ n, Anchor.find text "aa" 1 = .ok n ∧ Anchor.find "aaa-aa<b>x</b>" "aa" 1 = .ok n) ∧
      (∃ n, Anchor.find text "aa" 1 = .ok n ∧ Anchor.find "aa-aaa<b>x</b>" "aa" 1 = .ok n) ∧
      applyAll text edits = .ok "aa-aaaa" ∧ ChangeBehind 5 text edits ∧
      Anchor.find "aa-aaaa" "aa" 2 = .ok 3 := by
  intro text block edits
  have happly : block.apply text = .ok "aa-aaa" := by decide +kernel
  have hplace : block.place text = .ok 5 := by decide +kernel
  have hfind : Anchor.find text "aa" 2 = .ok 3 := by decide +kernel
  have hafter : (insert "aa" 1 .after "a").apply text = .ok "aaa-aa<b>x</b>" := by decide +kernel
  have hbefore : (insert "aa" 2 .before "a").apply text = .ok "aa-aaa<b>x</b>" := by
    decide +kernel
  have hall : applyAll text edits = .ok "aa-aaaa" := by decide +kernel
  have hsecond : (insert "aa" 2 .after "a").place "aa-aaa" = .ok 5 := by decide +kernel
  have hbehind : ChangeBehind 5 text edits := by
    intro b out hb hout
    obtain rfl := Except.ok.inj (hplace.symm.trans hb)
    obtain rfl := Except.ok.inj (happly.symm.trans hout)
    refine ⟨le_rfl, fun b' out' hb' _ => ⟨?_, trivial⟩⟩
    exact (Except.ok.inj (hsecond.symm.trans hb')).le
  obtain ⟨hone, hlist, hbehindAnchor, hbeforeAnchor⟩ := anchors_in_front text
  obtain ⟨a, ha, hkept⟩ := hone block "aa-aaa" happly
  obtain rfl := Except.ok.inj (hplace.symm.trans ha)
  exact ⟨happly, hplace, hfind, hkept "aa" 2 3 hfind (by decide),
    hbehindAnchor "aa" 1 "a" _ hafter 1 (by decide) (by decide),
    hbeforeAnchor "aa" 2 "a" _ hbefore 1 (by decide) (by decide), hall, hbehind,
    hlist edits _ 5 hall hbehind "aa" 2 3 hfind (by decide)⟩

end BlockEdit.Edit
