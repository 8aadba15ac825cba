import BlockEdit.Proofs.Edit.Anchored

/-!
# Block edits that change nothing the second time

A block edit whose replacement is itself a block behind its marker finds that replacement when it is
carried out again: the replacement is a block also where the rest of the document follows it
(`Block.locateEnd_of_whole`), unless its open token holds its close token.
-/

namespace BlockEdit.Edit

variable {text out marker replacement : String} {occurrence maxDepth : Nat} {tokens : TokenPair}

/-- A block edit finds its own replacement and puts the same one in its place. -/
theorem apply_replaceBlock_again (hopening : ¬tokens.closing.toList <:+: tokens.opening.toList)
    (hmarker : marker.toList <+: replacement.toList)
    (hblock : Block.locateEnd replacement 0 tokens = .ok ⟨replacement.utf8ByteSize, maxDepth⟩)
    (h : (replaceBlock marker occurrence tokens replacement).apply text = .ok out) :
    (replaceBlock marker occurrence tokens replacement).apply out = .ok out := by
  obtain ⟨start, e, hfind, he, hspan⟩ := exists_locateEnd_of_apply_replaceBlock h
  obtain ⟨front, rest, htext, rfl⟩ := Anchor.exists_split_of_find hfind
  obtain ⟨block, behind, hrest, hstop⟩ := Block.exists_split_of_locateEnd htext he
  -- The document is `front ++ block ++ behind`, and the replacement takes the place of the block.
  have hout : out = String.ofList (front ++ replacement.toList ++ behind) := by
    rw [apply, hstop, Span.replace_of_split (hrest ▸ htext)] at hspan
    exact (Except.ok.inj hspan).symm
  have hsplit : out.toList = front ++ (replacement.toList ++ behind) := by
    rw [hout, String.toList_ofList, List.append_assoc]
  obtain ⟨tail, htail⟩ := hmarker
  have hfind' : Anchor.find out marker occurrence = .ok (Text.byteSize front) :=
    Anchor.find_congr htext (by rw [hsplit, ← htail, List.append_assoc]) hfind
  have hend' := Block.locateEnd_of_whole hopening hblock hsplit
  have hreplace := Span.replace_of_split hsplit replacement
  simp only [apply, Block.locateNth, hfind', Block.locate, hend', hreplace, ← hout]

end BlockEdit.Edit
