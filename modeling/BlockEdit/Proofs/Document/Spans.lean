import BlockEdit.Document.Span
import BlockEdit.Proofs.Text.Parts

/-!
# Spans between two cuts

A span fits a document exactly when the document is cut in three by its ends, and all operations on
spans can be told from that split.

* `fits_iff_exists_split`: the split of a document by a span;
* `slice?_of_split`, `replace_of_split`: the text of a span, and what comes of its replacement;
* `replace_exact`: what a replacement does, and how it is undone.
-/

namespace BlockEdit.Span

open Text (byteSize IsBoundary)

variable {span : Span} {document : String} {front middle text rest : List Char}

/-- The text of a span in a document that is split there. -/
theorem slice?_of_split (h : document.toList = front ++ (text ++ rest)) :
    (⟨byteSize front, byteSize (front ++ text)⟩ : Span).slice? document =
      some (String.ofList text) := by
  rw [← List.append_assoc] at h
  simp only [slice?, h, Text.cutAt?_append, Option.map_some]

/-- A span between two cuts of a document is replaced. -/
theorem replace_of_split (h : document.toList = front ++ (middle ++ rest)) (replacement : String) :
    replace ⟨byteSize front, byteSize front + byteSize middle⟩ document replacement =
      .ok (String.ofList (front ++ replacement.toList ++ rest)) := by
  have hstart : Text.cutAt? (byteSize front) document.toList = some (front, middle ++ rest) :=
    Text.cutAt?_eq_some_iff.2 ⟨h, rfl⟩
  have hstop : Text.cutAt? (byteSize front + byteSize middle) document.toList =
      some (front ++ middle, rest) :=
    Text.cutAt?_eq_some_iff.2 ⟨by rw [h, List.append_assoc], by simp⟩
  have hfits : fits ⟨byteSize front, byteSize front + byteSize middle⟩ document = true := by
    simp [fits, hstart, hstop]
  simp only [replace, validate, hfits, hstart, hstop, if_true]

/-- A span without bytes is replaced at a cut of a document. -/
theorem replace_at_split (h : document.toList = front ++ rest) (replacement : String) :
    replace ⟨byteSize front, byteSize front⟩ document replacement =
      .ok (String.ofList (front ++ replacement.toList ++ rest)) :=
  @replace_of_split document front [] rest h replacement

theorem fits_iff : span.fits document = true ↔ span.start ≤ span.stop ∧
    IsBoundary span.start document.toList ∧ IsBoundary span.stop document.toList := by
  simp only [fits, Bool.and_eq_true, decide_eq_true_eq, Text.isSome_cutAt?_iff, and_assoc]

/-- A span fits a document that is cut in three by its ends. -/
theorem fits_iff_exists_split : span.fits document = true ↔ ∃ front text rest,
    document.toList = front ++ (text ++ rest) ∧
      span = ⟨byteSize front, byteSize (front ++ text)⟩ := by
  rw [fits_iff]
  constructor
  · rintro ⟨hle, ⟨front, behind, hdocument, hstart⟩, ⟨front', rest, hdocument', hstop⟩⟩
    obtain ⟨text, rfl, rfl⟩ :=
      Text.exists_between (hdocument.symm.trans hdocument') (by omega)
    exact ⟨front, text, rest, hdocument, by rw [hstart, hstop]⟩
  · rintro ⟨front, text, rest, hdocument, rfl⟩
    refine ⟨by simp, ⟨front, _, hdocument, rfl⟩, ⟨front ++ text, rest, ?_, rfl⟩⟩
    rw [hdocument, List.append_assoc]

theorem stop_le_of_fits (h : span.fits document = true) :
    span.stop ≤ byteSize document.toList := by
  obtain ⟨-, -, hstop⟩ := fits_iff.1 h
  exact hstop.le

/-- Only a span that fits a document has a text there. -/
theorem fits_of_slice? {s : String} (h : span.slice? document = some s) :
    span.fits document = true := by
  unfold slice? at h
  split at h
  · cases h
  · rename_i front rest hstop
    obtain ⟨⟨front, text⟩, hstart, -⟩ := Option.map_eq_some_iff.1 h
    obtain ⟨rfl, hsize⟩ := Text.cutAt?_eq_some hstart
    obtain ⟨hdocument, hsize'⟩ := Text.cutAt?_eq_some hstop
    refine fits_iff_exists_split.2 ⟨front, text, rest, by rw [hdocument, List.append_assoc], ?_⟩
    rw [hsize, hsize']

theorem validate_of_not_fits (h : ¬span.fits document = true) :
    span.validate document = .error (.badSpan span.start span.stop document.utf8ByteSize) := by
  rw [validate, if_neg h]

theorem replace_of_not_fits (h : ¬span.fits document = true) (replacement : String) :
    span.replace document replacement =
      .error (.badSpan span.start span.stop document.utf8ByteSize) := by
  simp only [replace, validate_of_not_fits h]

/-- A span that is replaced divides the document into three parts, of which the middle one gives way
to the replacement. -/
theorem exists_split_of_replace {replacement out : String}
    (h : span.replace document replacement = .ok out) :
    ∃ front text rest, document.toList = front ++ (text ++ rest) ∧
      span = ⟨byteSize front, byteSize (front ++ text)⟩ ∧
      out.toList = front ++ (replacement.toList ++ rest) := by
  by_cases hfits : span.fits document = true
  · obtain ⟨front, text, rest, hdocument, rfl⟩ := fits_iff_exists_split.1 hfits
    rw [Text.byteSize_append, replace_of_split hdocument] at h
    refine ⟨front, text, rest, hdocument, rfl, ?_⟩
    rw [← Except.ok.inj h, String.toList_ofList, List.append_assoc]
  · rw [replace_of_not_fits hfits] at h
    cases h

theorem validate_eq_ok_iff : span.validate document = .ok () ↔ span.fits document = true := by
  by_cases hfits : span.fits document = true
  · simp [validate, hfits]
  · simp [validate_of_not_fits hfits, hfits]

theorem exists_slice?_iff : (∃ s, span.slice? document = some s) ↔ span.fits document = true := by
  constructor
  · rintro ⟨s, h⟩
    exact fits_of_slice? h
  · intro h
    obtain ⟨front, text, rest, hdocument, rfl⟩ := fits_iff_exists_split.1 h
    exact ⟨_, slice?_of_split hdocument⟩

theorem exists_replace_iff (replacement : String) :
    (∃ out, span.replace document replacement = .ok out) ↔ span.fits document = true := by
  constructor
  · rintro ⟨out, h⟩
    obtain ⟨front, text, rest, hdocument, hspan, -⟩ := exists_split_of_replace h
    exact fits_iff_exists_split.2 ⟨front, text, rest, hdocument, hspan⟩
  · intro h
    obtain ⟨front, text, rest, hdocument, rfl⟩ := fits_iff_exists_split.1 h
    exact ⟨_, by rw [Text.byteSize_append]; exact replace_of_split hdocument replacement⟩

/-- The replacement of the replacement by the old text gives the document back. -/
theorem replace_back {replacement out : String}
    (h : span.replace document replacement = .ok out) :
    ∃ text, span.slice? document = some text ∧
      replace ⟨span.start, span.start + replacement.utf8ByteSize⟩ out text = .ok document := by
  obtain ⟨front, text, rest, hdocument, rfl, hout⟩ := exists_split_of_replace h
  refine ⟨_, slice?_of_split hdocument, ?_⟩
  rw [← Text.byteSize_toList, replace_of_split hout, String.toList_ofList, List.append_assoc,
    ← hdocument, String.ofList_toList]

/-- A span of a document can be replaced exactly when it can be validated and when it has a text,
which is when its ends are in order and no character is cut there; all other spans are refused with
one error. A replacement leaves the bytes in front of the span and behind it as they are, it is the
text of the span that it takes, and the text of the old span in its place gives the document
back. -/
theorem replace_exact (span : Span) (document replacement : String) :
    ((∃ out, span.replace document replacement = .ok out) ↔ span.validate document = .ok ()) ∧
    (span.validate document = .ok () ↔ ∃ text, span.slice? document = some text) ∧
    (span.validate document = .ok () ↔ span.start ≤ span.stop ∧
      IsBoundary span.start document.toList ∧ IsBoundary span.stop document.toList) ∧
    (span.validate document ≠ .ok () →
      let error := DocumentError.badSpan span.start span.stop document.utf8ByteSize
      span.validate document = .error error ∧
        span.replace document replacement = .error error) ∧
    ∀ out, span.replace document replacement = .ok out →
      let changed : Span := ⟨span.start, span.start + replacement.utf8ByteSize⟩
      out.utf8ByteSize = document.utf8ByteSize - span.size + replacement.utf8ByteSize ∧
      out.toUTF8.extract 0 span.start = document.toUTF8.extract 0 span.start ∧
      out.toUTF8.extract changed.stop out.utf8ByteSize =
        document.toUTF8.extract span.stop document.utf8ByteSize ∧
      changed.validate out = .ok () ∧
      changed.slice? out = some replacement ∧
      ∃ text, span.slice? document = some text ∧ changed.replace out text = .ok document := by
  rw [validate_eq_ok_iff, exists_slice?_iff, exists_replace_iff]
  refine ⟨Iff.rfl, Iff.rfl, fits_iff, fun h => ?_, fun out hout => ?_⟩
  · rw [Ne, validate_eq_ok_iff] at h
    exact ⟨validate_of_not_fits h, replace_of_not_fits h replacement⟩
  · have hback := replace_back hout
    obtain ⟨front, text, rest, hdocument, rfl, hsplit⟩ := exists_split_of_replace hout
    have hdocument' : document.toList = (front ++ text) ++ rest := by
      rw [hdocument, List.append_assoc]
    have hsplit' : out.toList = (front ++ replacement.toList) ++ rest := by
      rw [hsplit, List.append_assoc]
    have hslice := slice?_of_split hsplit
    have hstop : byteSize (front ++ replacement.toList) =
        byteSize front + replacement.utf8ByteSize := by
      rw [Text.byteSize_append, Text.byteSize_toList]
    rw [hstop, String.ofList_toList] at hslice
    refine ⟨?_, ?_, ?_, validate_eq_ok_iff.2 (fits_of_slice? hslice), hslice, hback⟩
    · rw [← Text.byteSize_toList, hsplit', ← Text.byteSize_toList, hdocument', size]
      simp only [Text.byteSize_append, Text.byteSize_toList]
      omega
    · rw [Text.extract_of_split_front hsplit, Text.extract_of_split_front hdocument]
    · rw [← hstop, Text.extract_of_split_rest hsplit', Text.extract_of_split_rest hdocument']

/-- The replacement of a character of three bytes in the middle of a document, and a span that ends
inside this character. -/
theorem replace_exact_euro :
    let document := "ü€!"
    let span : Span := ⟨2, 5⟩
    let broken : Span := ⟨2, 4⟩
    span.replace document "xy" = .ok "üxy!" ∧
      (⟨2, 4⟩ : Span).replace "üxy!" "€" = .ok document ∧
      broken.validate document = .error (.badSpan 2 4 6) ∧
      broken.replace document "xy" = .error (.badSpan 2 4 6) := by
  intro document span broken
  have hreplace : span.replace document "xy" = .ok "üxy!" := by decide +kernel
  have hslice : span.slice? document = some "€" := by decide +kernel
  have hbroken : broken.validate document ≠ .ok () := by decide +kernel
  obtain ⟨-, -, -, -, -, text, htext, hback⟩ :=
    (replace_exact span document "xy").2.2.2.2 "üxy!" hreplace
  obtain rfl : "€" = text := Option.some.inj (hslice.symm.trans htext)
  exact ⟨hreplace, hback, (replace_exact broken document "xy").2.2.2.1 hbroken⟩

end BlockEdit.Span
