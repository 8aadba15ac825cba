import BlockEdit.Edit.Basic
import BlockEdit.Proofs.Document.Spans

/-!
# Replacing several spans at once

Spans of one document that do not overlap can be replaced all at once: `Span.replaceTogether` puts
the document together from the bytes between the spans and the new texts, and looks at nothing but
the document. Edits are carried out one after another. From back to front, each edit leaves the
bytes in front of its span, and so all spans that are still to be replaced, where they were; the
result is the same (`exists_applyFrom_backwards`). From front to back, a span has to be moved by
what the edits in front of it add and take away. Both are told in `disjoint_spans_together`.
-/

namespace BlockEdit

open Text (byteSize)

/-- The first `stop` bytes of a document, with new texts in the place of spans. The spans are listed
from back to front. -/
def Span.replaceTogether (document : ByteArray) (stop : Nat) : List (Span × String) → ByteArray
  | [] => document.extract 0 stop
  | (span, text) :: changes =>
    replaceTogether document span.start changes ++ text.toUTF8 ++ document.extract span.stop stop

namespace Edit

/-- The edits that replace spans, one for each. -/
def replaceSpans (changes : List (Span × String)) : List Edit :=
  changes.map fun (span, text) => .replaceSpan span text

variable {document : String} {a b c d n : Nat} {front rest : List Char} {span : Span}
  {changes : List (Span × String)} {edits : List Edit}

theorem applyFrom_replaceSpan {middle : List Char} (h : document.toList = front ++ (middle ++ rest))
    (ha : a = byteSize front) (hb : b = byteSize front + byteSize middle) (text : String) :
    applyFrom n document (replaceSpan ⟨a, b⟩ text :: edits) =
      applyFrom (n + 1) (String.ofList (front ++ (text.toList ++ rest))) edits := by
  subst ha hb
  simp only [applyFrom, apply, Span.replace_of_split h, List.append_assoc]

/-- A span that ends in a part of the document in front of a cut is cut out of that part. -/
theorem exists_split_of_stop_le (h : document.toList = front ++ rest)
    (hfits : span.fits document = true) (hstop : span.stop ≤ byteSize front) :
    ∃ before middle gap, front = before ++ (middle ++ gap) ∧
      span = ⟨byteSize before, byteSize before + byteSize middle⟩ := by
  obtain ⟨before, middle, behind, hdocument, rfl⟩ := Span.fits_iff_exists_split.1 hfits
  rw [← List.append_assoc, h] at hdocument
  obtain ⟨gap, rfl, -⟩ := Text.exists_between hdocument.symm hstop
  exact ⟨before, middle, gap, by rw [List.append_assoc], by rw [Text.byteSize_append]⟩

/-- Edits that replace spans from back to front, all of them in front of a cut of the document, give
what their replacement at once gives there, whatever stands behind the cut by now. -/
theorem exists_applyFrom_backwards (hdocument : document.toList = front ++ rest)
    (hfits : ∀ change ∈ changes, change.1.fits document = true)
    (hstop : ∀ change ∈ changes, change.1.stop ≤ byteSize front)
    (hback : changes.Pairwise fun change next => next.1.stop ≤ change.1.start)
    (n : Nat) (tail : List Char) :
    ∃ out : List Char, applyFrom n (String.ofList (front ++ tail)) (replaceSpans changes) =
        .ok (String.ofList (out ++ tail)) ∧
      (String.ofList out).toUTF8 =
        Span.replaceTogether document.toUTF8 (byteSize front) changes := by
  induction changes generalizing front rest tail n with
  | nil => exact ⟨front, rfl, (Text.extract_of_split_front hdocument).symm⟩
  | cons change changes ih =>
    obtain ⟨span, text⟩ := change
    obtain ⟨hspan, hspans⟩ := List.forall_mem_cons.1 hfits
    obtain ⟨hnext, hnexts⟩ := List.pairwise_cons.1 hback
    obtain ⟨before, middle, gap, rfl, rfl⟩ :=
      exists_split_of_stop_le hdocument hspan (hstop _ List.mem_cons_self)
    have hbefore : document.toList = before ++ (middle ++ (gap ++ rest)) := by
      rw [hdocument, List.append_assoc, List.append_assoc]
    have hgap : document.toList = (before ++ middle) ++ (gap ++ rest) := by
      rw [hbefore, List.append_assoc]
    -- The edits that are left find everything in front of this span as it was.
    obtain ⟨out, hout, hbytes⟩ :=
      ih hbefore hspans hnext hnexts (n + 1) (text.toList ++ (gap ++ tail))
    refine ⟨out ++ (text.toList ++ gap), ?_, ?_⟩
    · have hcurrent : (String.ofList ((before ++ (middle ++ gap)) ++ tail)).toList =
          before ++ (middle ++ (gap ++ tail)) := by
        rw [String.toList_ofList, List.append_assoc, List.append_assoc]
      rw [replaceSpans, List.map_cons, applyFrom_replaceSpan hcurrent rfl rfl, ← replaceSpans, hout,
        List.append_assoc, List.append_assoc]
    · have hextract := Text.extract_of_split hgap
      rw [Text.byteSize_append] at hextract
      have hstop : byteSize (before ++ (middle ++ gap)) =
          byteSize before + byteSize middle + byteSize gap := by
        rw [Text.byteSize_append, Text.byteSize_append, Nat.add_assoc]
      rw [Span.replaceTogether, hstop, hextract, ← hbytes]
      simp only [String.ofList_append, String.ofList_toList, String.toUTF8_eq_toByteArray,
        String.toByteArray_append, ByteArray.append_assoc]

/-- Two spans that do not overlap divide the document into five parts. -/
theorem exists_split_of_disjoint (hfirst : (⟨a, b⟩ : Span).fits document = true)
    (hsecond : (⟨c, d⟩ : Span).fits document = true) (hle : b ≤ c) :
    ∃ front first gap second rest : List Char,
      document.toList = front ++ (first ++ (gap ++ (second ++ rest))) ∧ a = byteSize front ∧
        b = a + byteSize first ∧ c = b + byteSize gap ∧ d = c + byteSize second := by
  obtain ⟨before, second, rest, hdocument, hspan⟩ := Span.fits_iff_exists_split.1 hsecond
  obtain ⟨hc, hd⟩ := Span.mk.inj hspan
  obtain ⟨front, first, gap, rfl, hspan'⟩ :=
    exists_split_of_stop_le hdocument hfirst (hc ▸ hle)
  obtain ⟨ha, hb⟩ := Span.mk.inj hspan'
  simp only [Text.byteSize_append] at hc hd
  exact ⟨front, first, gap, second, rest, by simpa using hdocument, ha, by omega, by omega,
    by omega⟩

/-- Two spans that do not overlap are replaced with one result in both orders, when the one behind
is moved by what the replacement of the other adds and takes away. -/
theorem exists_applyAll_both_orders (hfirst : (⟨a, b⟩ : Span).fits document = true)
    (hsecond : (⟨c, d⟩ : Span).fits document = true) (hle : b ≤ c) (text text' : String) :
    ∃ out, applyAll document [replaceSpan ⟨c, d⟩ text', replaceSpan ⟨a, b⟩ text] = .ok out ∧
      applyAll document [replaceSpan ⟨a, b⟩ text, replaceSpan
        ⟨c + text.utf8ByteSize - (b - a), d + text.utf8ByteSize - (b - a)⟩ text'] = .ok out := by
  obtain ⟨front, first, gap, second, rest, hdocument, ha, hb, hc, hd⟩ :=
    exists_split_of_disjoint hfirst hsecond hle
  refine ⟨String.ofList (front ++ (text.toList ++ (gap ++ (text'.toList ++ rest)))), ?_, ?_⟩
  · have hbehind : document.toList = (front ++ (first ++ gap)) ++ (second ++ rest) := by
      simpa using hdocument
    have hplace : c = byteSize (front ++ (first ++ gap)) := by
      simp only [Text.byteSize_append]
      omega
    have hchanged : (String.ofList ((front ++ (first ++ gap)) ++ (text'.toList ++ rest))).toList =
        front ++ (first ++ (gap ++ (text'.toList ++ rest))) := by simp
    rw [applyAll, applyFrom_replaceSpan hbehind hplace (hplace ▸ hd),
      applyFrom_replaceSpan hchanged ha (ha ▸ hb)]
    rfl
  · have hplace : c + text.utf8ByteSize - (b - a) = byteSize (front ++ (text.toList ++ gap)) := by
      simp only [Text.byteSize_append, Text.byteSize_toList]
      omega
    have hstop : d + text.utf8ByteSize - (b - a) =
        byteSize (front ++ (text.toList ++ gap)) + byteSize second := by omega
    have hchanged : (String.ofList (front ++ (text.toList ++ (gap ++ (second ++ rest))))).toList =
        (front ++ (text.toList ++ gap)) ++ (second ++ rest) := by simp
    rw [applyAll, applyFrom_replaceSpan hdocument ha (ha ▸ hb),
      applyFrom_replaceSpan hchanged hplace hstop]
    simp [applyFrom]

/-- When two spans fit a document and the second one begins where the first one ends, or behind it,
both can be replaced. Replacing the second one first gives the same text as replacing the first one
first and then the second one, moved by the bytes that the new text has more than the first span.
Any number of such spans can be replaced from back to front, and this gives what comes of replacing
them all at once in the document. -/
theorem disjoint_spans_together (document : String) :
    (∀ a b c d text text', (⟨a, b⟩ : Span).fits document = true →
      (⟨c, d⟩ : Span).fits document = true → b ≤ c →
      ∃ out, applyAll document [replaceSpan ⟨c, d⟩ text', replaceSpan ⟨a, b⟩ text] = .ok out ∧
        applyAll document [replaceSpan ⟨a, b⟩ text, replaceSpan
          ⟨c + text.utf8ByteSize - (b - a), d + text.utf8ByteSize - (b - a)⟩ text'] = .ok out) ∧
    ∀ changes : List (Span × String), (∀ change ∈ changes, change.1.fits document = true) →
      changes.Pairwise (fun change next => next.1.stop ≤ change.1.start) →
      ∃ out, applyAll document (replaceSpans changes) = .ok out ∧
        out.toUTF8 = Span.replaceTogether document.toUTF8 document.utf8ByteSize changes := by
  refine ⟨fun a b c d text text' hfirst hsecond hle =>
    exists_applyAll_both_orders hfirst hsecond hle text text', fun changes hfits hback => ?_⟩
  have hdocument : document.toList = document.toList ++ [] := (List.append_nil _).symm
  have hstop : ∀ change ∈ changes, change.1.stop ≤ byteSize document.toList :=
    fun change hchange => Span.stop_le_of_fits (hfits change hchange)
  obtain ⟨out, happly, hbytes⟩ := exists_applyFrom_backwards hdocument hfits hstop hback 1 []
  rw [List.append_nil, List.append_nil, String.ofList_toList] at happly
  rw [Text.byteSize_toList] at hbytes
  exact ⟨_, happly, hbytes⟩

/-- Three spans of which each begins where the one in front of it ends, the middle one without
bytes. -/
theorem disjoint_spans_together_adjacent :
    let document := "ü€!"
    let changes : List (Span × String) := [(⟨2, 5⟩, "xy"), (⟨2, 2⟩, "-"), (⟨0, 2⟩, "a")]
    (∀ change ∈ changes, change.1.fits document = true) ∧
      changes.Pairwise (fun change next => next.1.stop ≤ change.1.start) ∧
      applyAll document (replaceSpans changes) = .ok "a-xy!" ∧
      "a-xy!".toUTF8 = Span.replaceTogether document.toUTF8 6 changes ∧
      applyAll document [replaceSpan ⟨2, 5⟩ "xy", replaceSpan ⟨0, 2⟩ "a"] = .ok "axy!" ∧
      applyAll document [replaceSpan ⟨0, 2⟩ "a", replaceSpan ⟨1, 4⟩ "xy"] = .ok "axy!" := by
  intro document changes
  have hfits : ∀ change ∈ changes, change.1.fits document = true := by decide +kernel
  have hback : changes.Pairwise fun change next => next.1.stop ≤ change.1.start := by
    decide +kernel
  have hall : applyAll document (replaceSpans changes) = .ok "a-xy!" := by decide +kernel
  have htwo : applyAll document [replaceSpan ⟨2, 5⟩ "xy", replaceSpan ⟨0, 2⟩ "a"] =
      .ok "axy!" := by decide +kernel
  obtain ⟨out, hout, hbytes⟩ := (disjoint_spans_together document).2 changes hfits hback
  obtain rfl := Except.ok.inj (hall.symm.trans hout)
  obtain ⟨out', hout', hmoved⟩ := (disjoint_spans_together document).1 0 2 2 5 "a" "xy"
    (by decide +kernel) (by decide +kernel) le_rfl
  obtain rfl := Except.ok.inj (htwo.symm.trans hout')
  exact ⟨hfits, hback, hall, hbytes, htwo, hmoved⟩

end Edit

end BlockEdit
