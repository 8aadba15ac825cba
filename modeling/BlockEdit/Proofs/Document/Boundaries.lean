import BlockEdit.Proofs.Block.Cuts
import BlockEdit.Proofs.Block.Reading
import BlockEdit.Proofs.Block.Scan
import BlockEdit.Proofs.Document.Spans
import BlockEdit.Proofs.Text.ByteSearch

/-!
# Offsets between characters

All offsets at which a document is cut lie between two of its characters: those that the scan for
the end of a block comes to, its result, and the ends of the matches of a marker, at which something
is inserted. This holds although tokens and markers are compared byte by byte:
`offsets_on_boundaries` says it of the scan as a loop over bytes (`Block.run`) and of the search
from byte to byte (`Text.byteMatches`).
-/

namespace BlockEdit

open Text (IsBoundary byteSize)

variable {document marker : String} {tokens : TokenPair} {start occurrence : Nat} {e : Block.End}

namespace Block

/-- A start that is not refused lies between two characters. -/
theorem isBoundary_of_accepted (ho : tokens.opening ≠ "") (hc : tokens.closing ≠ "")
    (h : locateEnd document start tokens ≠ .error (.badOffset start document.utf8ByteSize)) :
    IsBoundary start document.toList := by
  obtain ⟨d, hd⟩ := delimiters_eq_ok ho hc
  rw [← Text.isSome_cutAt?_iff]
  cases hcut : Text.cutAt? start document.toList with
  | some cut => rfl
  | none => exact absurd (by simp only [locateEnd, hd, hcut]) h

/-- The end of a block lies behind its start, between two characters. -/
theorem isBoundary_of_locateEnd (h : locateEnd document start tokens = .ok e) :
    IsBoundary e.stop document.toList ∧ start < e.stop ∧ e.stop ≤ document.utf8ByteSize := by
  obtain ⟨d, front, block, behind, -, hdocument, rfl, hstop, hseek⟩ := exists_block_of_locateEnd h
  have hblock : block ≠ [] := by
    rintro rfl
    rw [seek_nil] at hseek
    cases hseek
  have hpos := Text.byteSize_pos hblock
  have hsize : document.utf8ByteSize = byteSize front + (byteSize block + byteSize behind) := by
    rw [← Text.byteSize_toList, hdocument, Text.byteSize_append, Text.byteSize_append]
  refine ⟨⟨front ++ block, behind, ?_, ?_⟩, by omega, by omega⟩
  · rw [hdocument, List.append_assoc]
  · rw [hstop, Text.byteSize_append]

end Block

namespace Anchor

/-- An anchor is found where a search of the bytes has a match. -/
theorem find_eq_ok_iff_byteMatches {k : Nat} :
    find document marker (k + 1) = .ok start ↔
      (Text.byteMatches marker document)[k]? = some start := by
  rw [Text.byteMatches_eq, Text.occurrences]
  by_cases hm : marker.toList = []
  · simp [find, hm]
  · rw [find_eq_ok_iff, dif_neg hm]
    constructor
    · rintro ⟨k', hk, _, h⟩
      rwa [Nat.succ.inj hk]
    · exact fun h => ⟨k, rfl, hm, h⟩

/-- A document is cut at a boundary into two parts, between which something is inserted. -/
theorem exists_slices_of_insert {place : Nat} (placement : Placement) (content : String)
    (h : find document marker occurrence = .ok start)
    (hplace : insertionPoint start marker placement = place)
    (hboundary : IsBoundary place document.toList) :
    ∃ front behind, (⟨0, place⟩ : Span).slice? document = some front ∧
      (⟨place, document.utf8ByteSize⟩ : Span).slice? document = some behind ∧
      insert document marker occurrence placement content = .ok (front ++ content ++ behind) := by
  obtain ⟨front, behind, hdocument, rfl⟩ := hboundary
  have hcut : Text.cutAt? (byteSize front) document.toList = some (front, behind) :=
    Text.cutAt?_eq_some_iff.2 ⟨hdocument, rfl⟩
  have hfront := @Span.slice?_of_split document [] front behind hdocument
  have hbehind := @Span.slice?_of_split document front behind []
    (by rw [List.append_nil, hdocument])
  rw [← hdocument, Text.byteSize_toList] at hbehind
  refine ⟨_, _, hfront, hbehind, ?_⟩
  simp only [insert, h, hplace, hcut, String.ofList_append, String.ofList_toList]

end Anchor

/-- Offsets lie between characters. From each start that is accepted, no turn of the scan takes the
text from the inside of a character on: each comes to an offset between two characters, inside the
document and behind the one before, and after no more turns than bytes the scan ends with the result
of `Block.locateEnd`. The end of a block lies between two characters and behind its start. An
anchor, which a search of the bytes finds, begins and ends between two characters, where an
insertion takes the parts of the document in front of it and behind it. Wherever the bytes of a
marker stand, they begin and end between two characters. -/
theorem offsets_on_boundaries (document : String) :
    (∀ (tokens : TokenPair) (start : Nat), tokens.opening ≠ "" → tokens.closing ≠ "" →
      Block.locateEnd document start tokens ≠
        .error (.badOffset start document.utf8ByteSize) →
      (∀ n, Block.run document tokens start n ≠ .torn) ∧
      (∀ n p, Block.run document tokens start n = .going p →
        IsBoundary p.pos document.toList ∧ start ≤ p.pos ∧ p.pos ≤ document.utf8ByteSize ∧
        ∀ p', Block.run document tokens start (n + 1) = .going p' → p.pos < p'.pos) ∧
      (∃ result, Block.run document tokens start (document.utf8ByteSize - start + 1) =
          .ended result ∧
        Block.locateEnd document start tokens = result.mapError (.unbalanced start)) ∧
      ∀ e, Block.locateEnd document start tokens = .ok e →
        IsBoundary e.stop document.toList ∧ start < e.stop ∧ e.stop ≤ document.utf8ByteSize) ∧
    (∀ marker k start, Anchor.find document marker (k + 1) = .ok start ↔
      (Text.byteMatches marker document)[k]? = some start) ∧
    (∀ marker occurrence start, Anchor.find document marker occurrence = .ok start →
      IsBoundary start document.toList ∧
      IsBoundary (start + marker.utf8ByteSize) document.toList ∧
      start + marker.utf8ByteSize ≤ document.utf8ByteSize ∧
      ∀ placement content,
        let place := Anchor.insertionPoint start marker placement
        ∃ front behind, (⟨0, place⟩ : Span).slice? document = some front ∧
          (⟨place, document.utf8ByteSize⟩ : Span).slice? document = some behind ∧
          Anchor.insert document marker occurrence placement content =
            .ok (front ++ content ++ behind)) ∧
    ∀ marker n, marker ≠ "" → Text.bytes marker <+: (Text.bytes document).drop n →
      IsBoundary n document.toList ∧ IsBoundary (n + marker.utf8ByteSize) document.toList := by
  refine ⟨fun tokens start ho hc haccepted => ?_, fun marker k start =>
    Anchor.find_eq_ok_iff_byteMatches, fun marker occurrence start hfind => ?_,
    fun marker n hmarker hmatch => ?_⟩
  · obtain ⟨d, hd⟩ := Block.delimiters_eq_ok ho hc
    obtain ⟨front, rest, hdocument, rfl⟩ := Block.isBoundary_of_accepted ho hc haccepted
    have hfollows := Block.follows_run hd hdocument
    have hturns : document.utf8ByteSize - byteSize front = byteSize rest := by
      rw [← Text.byteSize_toList, hdocument, Text.byteSize_append, Nat.add_sub_cancel_left]
    refine ⟨fun n htorn => ?_, fun n p hgoing => ?_, ?_, fun e => Block.isBoundary_of_locateEnd⟩
    · have h := hfollows n
      rw [htorn] at h
      cases h
    · have h := hfollows n
      have hnext := (h.next hd).2 p
      rw [hgoing] at h
      obtain ⟨hboundary, hstart, hle⟩ := h.of_going
      exact ⟨hboundary, hstart, hle, fun p' => hnext p' hgoing⟩
    · rw [hturns, Block.run_ended hd hdocument, Block.locateEnd_of_split tokens hdocument, hd]
      exact ⟨_, rfl, rfl⟩
  · have hoccurs : Text.OccursAt marker.toList start document.toList :=
      Anchor.exists_split_of_find hfind
    have hstart := Block.isBoundary_of_occursAt hoccurs
    have hstop := hoccurs.isBoundary_stop
    rw [Text.byteSize_toList] at hstop
    refine ⟨hstart, hstop, Text.byteSize_toList document ▸ hstop.le, fun placement content => ?_⟩
    cases placement with
    | before => exact Anchor.exists_slices_of_insert .before content hfind rfl hstart
    | after => exact Anchor.exists_slices_of_insert .after content hfind rfl hstop
  · have hne : marker.toList ≠ [] := fun hnil => hmarker (String.toList_eq_nil_iff.1 hnil)
    rw [Text.bytes_eq, Text.bytes_eq] at hmatch
    have hoccurs := (Text.occursAt_iff_prefix_drop hne).2 hmatch
    rw [← Text.byteSize_toList marker]
    exact ⟨Block.isBoundary_of_occursAt hoccurs, hoccurs.isBoundary_stop⟩

/-- A block whose tokens have a character of two bytes, with characters of the same first byte in
front of it, inside it and behind it. -/
theorem offsets_on_boundaries_umlaut :
    let document := "ü<ö>€ä</ö>é"
    let tokens : TokenPair := ⟨"<ö>", "</ö>"⟩
    Block.locateEnd document 2 tokens = .ok ⟨16, 1⟩ ∧
      Block.run document tokens 2 1 = .going ⟨6, 1, 1⟩ ∧
      Block.run document tokens 2 2 = .going ⟨9, 1, 1⟩ ∧
      IsBoundary 6 document.toList ∧ 6 < 9 ∧ IsBoundary 16 document.toList ∧
      (∃ result, Block.run document tokens 2 17 = .ended result ∧
        Block.locateEnd document 2 tokens = result.mapError (.unbalanced 2)) ∧
      Anchor.find document "ö" 2 = .ok 13 ∧ (Text.byteMatches "ö" document)[1]? = some 13 ∧
      IsBoundary 13 document.toList ∧ IsBoundary 15 document.toList := by
  intro document tokens
  have hlocate : Block.locateEnd document 2 tokens = .ok ⟨16, 1⟩ := by decide +kernel
  have hone : Block.run document tokens 2 1 = .going ⟨6, 1, 1⟩ := by decide +kernel
  have htwo : Block.run document tokens 2 2 = .going ⟨9, 1, 1⟩ := by decide +kernel
  have hfind : Anchor.find document "ö" 2 = .ok 13 := by decide +kernel
  have haccepted : Block.locateEnd document 2 tokens ≠
      .error (.badOffset 2 document.utf8ByteSize) := by
    rw [hlocate]
    nofun
  obtain ⟨hscan, hbytes, hanchor, -⟩ := offsets_on_boundaries document
  obtain ⟨-, hgoing, hended, hstop⟩ := hscan tokens 2 (by decide) (by decide) haccepted
  obtain ⟨hboundary, -, -, hlt⟩ := hgoing 1 _ hone
  obtain ⟨hstart, hbehind, -, -⟩ := hanchor "ö" 2 13 hfind
  exact ⟨hlocate, hone, htwo, hboundary, hlt _ htwo, (hstop _ hlocate).1, hended, hfind,
    (hbytes "ö" 1 13).1 hfind, hstart, hbehind⟩

end BlockEdit
