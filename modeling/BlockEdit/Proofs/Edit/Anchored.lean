import BlockEdit.Edit.Basic
import BlockEdit.Proofs.Block.Locality
import BlockEdit.Proofs.Document.Spans
import BlockEdit.Proofs.Text.Matches

/-!
# Anchored edits as replacements of spans

An insertion puts its content at an anchor, and a block edit replaces the block that begins at one.
Both come to the replacement of a span whose ends are found in the document as it is, and so lie
inside it and between characters. `apply_anchored` says that nothing else can go wrong with such an
edit than that its anchor or its block is not found.
-/

namespace BlockEdit

/-- The error is about an offset or a span that does not fit the document. -/
def DocumentError.IsMisfit : DocumentError → Prop
  | .badOffset .. | .badSpan .. => True
  | _ => False

namespace Block

variable {document : String} {tokens : TokenPair} {error : DocumentError}

theorem not_isMisfit_of_delimiters (h : tokens.delimiters = .error error) : ¬error.IsMisfit := by
  obtain ⟨side, rfl⟩ := eq_emptyToken_of_delimiters h
  exact id

/-- No block is found at a cut of the document only because there is none, or because it has an
empty token. -/
theorem not_isMisfit_of_locateEnd {front rest : List Char} (h : document.toList = front ++ rest)
    (he : locateEnd document (Text.byteSize front) tokens = .error error) : ¬error.IsMisfit := by
  rw [locateEnd_of_split tokens h] at he
  cases hd : tokens.delimiters with
  | error error' =>
    rw [hd] at he
    cases he
    exact not_isMisfit_of_delimiters hd
  | ok d =>
    rw [hd] at he
    cases hseek : seek d (Text.byteSize front) 0 0 rest with
    | error imbalance => rw [Except.bind, hseek] at he; cases he; exact id
    | ok end' => rw [Except.bind, hseek] at he; cases he

end Block

namespace Anchor

variable {document marker : String} {occurrence : Nat} {error : DocumentError}

theorem not_isMisfit_of_find (h : find document marker occurrence = .error error) :
    ¬error.IsMisfit := by
  unfold find at h
  split at h
  · cases h; exact id
  split at h
  · cases h; exact id
  split at h
  · cases h
  · cases h; exact id

end Anchor

namespace Edit

/-- An edit that looks for its place by a marker. -/
def IsAnchored : Edit → Prop
  | .insert .. | .replaceBlock .. => True
  | .replaceSpan .. => False

/-- An insertion fails as the search for its anchor does, or it replaces the span without bytes at
its place. -/
theorem apply_insert_cases (text marker : String) (occurrence : Nat) (placement : Placement)
    (content : String) :
    (∃ error, Anchor.find text marker occurrence = .error error ∧
      (insert marker occurrence placement content).apply text = .error error ∧
      ¬error.IsMisfit) ∨
    ∃ start out, Anchor.find text marker occurrence = .ok start ∧
      (insert marker occurrence placement content).apply text = .ok out ∧
      (replaceSpan ⟨Anchor.insertionPoint start marker placement,
        Anchor.insertionPoint start marker placement⟩ content).apply text = .ok out := by
  cases h : Anchor.find text marker occurrence with
  | error error =>
    exact .inl ⟨error, rfl, by simp only [apply, Anchor.insert, h], Anchor.not_isMisfit_of_find h⟩
  | ok start =>
    obtain ⟨front, rest, htext, rfl⟩ := Anchor.exists_split_of_find h
    obtain ⟨before, behind, hsplit, hsize⟩ : ∃ before behind, text.toList = before ++ behind ∧
        Text.byteSize before =
          Anchor.insertionPoint (Text.byteSize front) marker placement := by
      cases placement with
      | before => exact ⟨front, _, htext, rfl⟩
      | after =>
        refine ⟨front ++ marker.toList, rest, by rw [htext, List.append_assoc], ?_⟩
        rw [Text.byteSize_append, Text.byteSize_toList, Anchor.insertionPoint]
    have hcut := Text.cutAt?_eq_some_iff.2 ⟨hsplit, hsize⟩
    have hspan := Span.replace_at_split hsplit content
    rw [hsize] at hspan
    exact .inr ⟨_, _, rfl, by simp only [apply, Anchor.insert, h, hcut], hspan⟩

/-- A block edit fails as the search for its anchor or for its block does, or it replaces the span
of the block. -/
theorem apply_replaceBlock_cases (text marker : String) (occurrence : Nat) (tokens : TokenPair)
    (replacement : String) :
    (∃ error, Anchor.find text marker occurrence = .error error ∧
      (replaceBlock marker occurrence tokens replacement).apply text = .error error ∧
      ¬error.IsMisfit) ∨
    (∃ start error, Anchor.find text marker occurrence = .ok start ∧
      Block.locateEnd text start tokens = .error error ∧
      (replaceBlock marker occurrence tokens replacement).apply text = .error error ∧
      ¬error.IsMisfit) ∨
    ∃ start e out, Anchor.find text marker occurrence = .ok start ∧
      Block.locateEnd text start tokens = .ok e ∧
      (replaceBlock marker occurrence tokens replacement).apply text = .ok out ∧
      (replaceSpan ⟨start, e.stop⟩ replacement).apply text = .ok out := by
  cases h : Anchor.find text marker occurrence with
  | error error =>
    exact .inl ⟨error, rfl, by simp only [apply, Block.locateNth, h],
      Anchor.not_isMisfit_of_find h⟩
  | ok start =>
    obtain ⟨front, rest, htext, rfl⟩ := Anchor.exists_split_of_find h
    refine .inr ?_
    cases he : Block.locateEnd text (Text.byteSize front) tokens with
    | error error =>
      exact .inl ⟨_, error, rfl, he, by simp only [apply, Block.locateNth, h, Block.locate, he],
        Block.not_isMisfit_of_locateEnd htext he⟩
    | ok e =>
      obtain ⟨block, behind, hblock, hstop⟩ := Block.exists_split_of_locateEnd htext he
      have hspan := Span.replace_of_split (hblock ▸ htext) replacement
      rw [← hstop] at hspan
      exact .inr ⟨_, e, _, rfl, he,
        by simp only [apply, Block.locateNth, h, Block.locate, he, hspan], hspan⟩

section Success

variable {text out marker content replacement : String} {occurrence : Nat} {placement : Placement}
  {tokens : TokenPair}

/-- An insertion that succeeds has found its anchor, and replaces the span without bytes there. -/
theorem exists_find_of_apply_insert
    (h : (insert marker occurrence placement content).apply text = .ok out) :
    ∃ start, Anchor.find text marker occurrence = .ok start ∧
      (replaceSpan ⟨Anchor.insertionPoint start marker placement,
        Anchor.insertionPoint start marker placement⟩ content).apply text = .ok out := by
  rcases apply_insert_cases text marker occurrence placement content with
    ⟨error, -, happly, -⟩ | ⟨start, out', hfind, happly, hspan⟩
  · cases happly.symm.trans h
  · obtain rfl := Except.ok.inj (happly.symm.trans h)
    exact ⟨start, hfind, hspan⟩

/-- A block edit that succeeds has found its anchor and its block, and replaces the span of the
block. -/
theorem exists_locateEnd_of_apply_replaceBlock
    (h : (replaceBlock marker occurrence tokens replacement).apply text = .ok out) :
    ∃ start e, Anchor.find text marker occurrence = .ok start ∧
      Block.locateEnd text start tokens = .ok e ∧
      (replaceSpan ⟨start, e.stop⟩ replacement).apply text = .ok out := by
  rcases apply_replaceBlock_cases text marker occurrence tokens replacement with
    ⟨error, -, happly, -⟩ | ⟨start, error, -, -, happly, -⟩ |
      ⟨start, e, out', hfind, he, happly, hspan⟩
  · cases happly.symm.trans h
  · cases happly.symm.trans h
  · obtain rfl := Except.ok.inj (happly.symm.trans h)
    exact ⟨start, e, hfind, he, hspan⟩

end Success

/-- What an edit with an anchor does: it replaces the span that the anchor gives, or fails as the
search for the anchor or for the block does, and never because of an offset or a span. -/
theorem apply_anchored (text : String) :
    (∀ marker occurrence placement content,
      let edit := insert marker occurrence placement content
      ((∃ out, edit.apply text = .ok out) ↔
        ∃ start, Anchor.find text marker occurrence = .ok start) ∧
      (∀ start, Anchor.find text marker occurrence = .ok start →
        let place := match placement with
          | .before => start
          | .after => start + marker.utf8ByteSize
        edit.apply text = (replaceSpan ⟨place, place⟩ content).apply text) ∧
      ∀ error, edit.apply text = .error error ↔
        Anchor.find text marker occurrence = .error error) ∧
    (∀ marker occurrence tokens replacement,
      let edit := replaceBlock marker occurrence tokens replacement
      ((∃ out, edit.apply text = .ok out) ↔
        ∃ start e, Anchor.find text marker occurrence = .ok start ∧
          Block.locateEnd text start tokens = .ok e) ∧
      (∀ start e, Anchor.find text marker occurrence = .ok start →
        Block.locateEnd text start tokens = .ok e →
          edit.apply text = (replaceSpan ⟨start, e.stop⟩ replacement).apply text) ∧
      ∀ error, edit.apply text = .error error ↔
        Anchor.find text marker occurrence = .error error ∨
          ∃ start, Anchor.find text marker occurrence = .ok start ∧
            Block.locateEnd text start tokens = .error error) ∧
    ∀ edit : Edit, edit.IsAnchored → ∀ error, edit.apply text = .error error →
      ¬error.IsMisfit := by
  refine ⟨fun marker occurrence placement content => ?_,
    fun marker occurrence tokens replacement => ?_, fun edit hedit error h => ?_⟩
  · rcases apply_insert_cases text marker occurrence placement content with
      ⟨error, hfind, happly, -⟩ | ⟨start, out, hfind, happly, hspan⟩
    · simp [hfind, happly]
    · refine ⟨by simp [hfind, happly], fun start' hfind' => ?_, by simp [hfind, happly]⟩
      obtain rfl := Except.ok.inj (hfind.symm.trans hfind')
      rw [happly, ← hspan]
      cases placement <;> rfl
  · rcases apply_replaceBlock_cases text marker occurrence tokens replacement with
      ⟨error, hfind, happly, -⟩ | ⟨start, error, hfind, he, happly, -⟩ |
        ⟨start, e, out, hfind, he, happly, hspan⟩
    · simp [hfind, happly]
    · refine ⟨by simp [hfind, he, happly], fun start' e' hfind' he' => ?_,
        by simp [hfind, he, happly]⟩
      obtain rfl := Except.ok.inj (hfind.symm.trans hfind')
      cases he.symm.trans he'
    · refine ⟨by simp [hfind, he, happly], fun start' e' hfind' he' => ?_,
        by simp [hfind, he, happly]⟩
      obtain rfl := Except.ok.inj (hfind.symm.trans hfind')
      obtain rfl := Except.ok.inj (he.symm.trans he')
      rw [happly, hspan]
  · cases edit with
    | insert marker occurrence placement content =>
      rcases apply_insert_cases text marker occurrence placement content with
        ⟨error', -, happly, hmisfit⟩ | ⟨start, out, -, happly, -⟩
      · exact Except.error.inj (happly.symm.trans h) ▸ hmisfit
      · cases happly.symm.trans h
    | replaceBlock marker occurrence tokens replacement =>
      rcases apply_replaceBlock_cases text marker occurrence tokens replacement with
        ⟨error', -, happly, hmisfit⟩ | ⟨start, error', -, -, happly, hmisfit⟩ |
          ⟨start, e, out, -, -, happly, -⟩
      · exact Except.error.inj (happly.symm.trans h) ▸ hmisfit
      · exact Except.error.inj (happly.symm.trans h) ▸ hmisfit
      · cases happly.symm.trans h
    | replaceSpan span replacement => exact hedit.elim

/-- An insertion behind the second `ü`, the replacement of the block in front of it, and a third `ü`
that is missing. -/
theorem apply_anchored_umlaut :
    let text := "<b>ü</b>ü"
    let tokens := TokenPair.element "b"
    Anchor.find text "ü" 2 = .ok 9 ∧ Anchor.find text "<b>" 1 = .ok 0 ∧
      Block.locateEnd text 0 tokens = .ok ⟨9, 1⟩ ∧
      (insert "ü" 2 .after "x").apply text = (replaceSpan ⟨11, 11⟩ "x").apply text ∧
      (replaceBlock "<b>" 1 tokens "y").apply text = (replaceSpan ⟨0, 9⟩ "y").apply text ∧
      (insert "ü" 3 .before "x").apply text = .error (.markerNotFound "ü" 3 2) ∧
      ¬(DocumentError.markerNotFound "ü" 3 2).IsMisfit := by
  intro text tokens
  have hfind : Anchor.find text "ü" 2 = .ok 9 := by decide +kernel
  have hfirst : Anchor.find text "<b>" 1 = .ok 0 := by decide +kernel
  have hend : Block.locateEnd text 0 tokens = .ok ⟨9, 1⟩ := by decide +kernel
  have herror : (insert "ü" 3 .before "x").apply text = .error (.markerNotFound "ü" 3 2) := by
    decide +kernel
  obtain ⟨hinsert, hblock, hmisfit⟩ := apply_anchored text
  refine ⟨hfind, hfirst, hend, ?_, ?_, herror, ?_⟩
  · exact (hinsert "ü" 2 .after "x").2.1 9 hfind
  · exact (hblock "<b>" 1 tokens "y").2.1 0 _ hfirst hend
  · exact hmisfit (insert "ü" 3 .before "x") trivial _ herror

end Edit

end BlockEdit
