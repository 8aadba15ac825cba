import BlockEdit.Document.Block
import BlockEdit.Proofs.Text.Matches

/-!
# What the end of a block depends on

A scan that ends has read the text up to the end of the block, and it ends there in that part of the
text alone (`exists_split_of_seek`). It ends there also when any other text follows (`seek_append`),
unless an open token could reach over that end, for which it would have to hold the close token.
What stands in front of the scan has no part in it but for the offsets (`seek_relocate`).

* `exists_block_of_locateEnd`, `locateEnd_of_seek`: what this says of a block in a document;
* `locateEnd_local`: the end of a block when the text behind it, inside it or in front of it is
  another one.
-/

namespace BlockEdit

/-- The same end in a text in which the offset `start` has become `start'`. -/
def Block.End.relocate (start start' : Nat) (e : Block.End) : Block.End :=
  ⟨e.stop - start + start', e.maxDepth⟩

/-- The same imbalance in a text in which the offset `start` has become `start'`. -/
def Imbalance.relocate (start start' : Nat) : Imbalance → Imbalance
  | .unclosedAtEnd depth length => .unclosedAtEnd depth (length - start + start')
  | .unexpectedClose offset => .unexpectedClose (offset - start + start')
  | .neverOpened length => .neverOpened (length - start + start')

/-- The same failed search for a block in a text in which the offset `start` has become `start'`. -/
def DocumentError.relocate (start start' : Nat) : DocumentError → DocumentError
  | .unbalanced offset imbalance =>
    .unbalanced (offset - start + start') (imbalance.relocate start start')
  | error => error

namespace Block

open Text (byteSize)

/-! ### The scan -/

section Seek

variable {d : Delimiters} {pos depth deepest start : Nat} {cs : List Char} {e : End}

/-- A scan ends behind a part of the text that it reads, and it ends there when it reads that part
alone. -/
theorem exists_split_of_seek (h : seek d pos depth deepest cs = .ok e) :
    ∃ block rest, cs = block ++ rest ∧ e.stop = pos + byteSize block ∧
      seek d pos depth deepest block = .ok e := by
  fun_induction seek d pos depth deepest cs with
  | case1 pos depth deepest cs rest ho ih =>
    obtain ⟨block, rest, rfl, hstop, hblock⟩ := ih h
    refine ⟨d.opening ++ block, rest, ?_, ?_, ?_⟩
    · rw [Text.after?_eq_some ho, List.append_assoc]
    · rw [hstop, Text.byteSize_append, Nat.add_assoc]
    · rw [seek_opening (Text.after?_append _ _), hblock]
  | case2 => cases h
  | case3 pos deepest cs ho rest hc =>
    cases h
    obtain rfl := Text.after?_eq_some hc
    have hwhole : Text.after? d.closing d.closing = some [] :=
      Text.after?_eq_some_iff.2 (List.append_nil _).symm
    exact ⟨d.closing, rest, rfl, rfl, seek_last_closing (Text.after?_eq_none_of_append ho) hwhole⟩
  | case4 pos deepest cs ho rest hc depth ih =>
    obtain ⟨block, rest, rfl, hstop, hblock⟩ := ih h
    rw [Text.after?_eq_some hc, ← List.append_assoc] at ho
    refine ⟨d.closing ++ block, rest, ?_, ?_, ?_⟩
    · rw [Text.after?_eq_some hc, List.append_assoc]
    · rw [hstop, Text.byteSize_append, Nat.add_assoc]
    · rw [seek_closing (Text.after?_eq_none_of_append ho) (Text.after?_append _ _), hblock]
  | case5 pos depth deepest ho hc => split at h <;> cases h
  | case6 pos depth deepest c cs ho hc ih =>
    obtain ⟨block, rest, rfl, hstop, hblock⟩ := ih h
    rw [← List.cons_append] at ho hc
    refine ⟨c :: block, rest, rfl, by rw [hstop, Text.byteSize_cons, Nat.add_assoc], ?_⟩
    rw [seek_cons (Text.after?_eq_none_of_append ho) (Text.after?_eq_none_of_append hc), hblock]

/-- A scan that ends with its text has read a close token last. -/
theorem closing_suffix_of_seek (h : seek d pos depth deepest cs = .ok e)
    (hstop : e.stop = pos + Text.byteSize cs) : d.closing <:+ cs := by
  fun_induction seek d pos depth deepest cs with
  | case1 pos depth deepest cs rest ho ih =>
    rw [Text.after?_eq_some ho, Text.byteSize_append, ← Nat.add_assoc] at hstop
    rw [Text.after?_eq_some ho]
    exact (ih h hstop).trans (List.suffix_append _ _)
  | case2 => cases h
  | case3 pos deepest cs ho rest hc =>
    cases h
    rw [Text.after?_eq_some hc, Text.byteSize_append] at hstop
    have hrest : rest = [] := Text.byteSize_eq_zero.1 (by simp at hstop; omega)
    rw [Text.after?_eq_some hc, hrest, List.append_nil]
  | case4 pos deepest cs ho rest hc depth ih =>
    rw [Text.after?_eq_some hc, Text.byteSize_append, ← Nat.add_assoc] at hstop
    rw [Text.after?_eq_some hc]
    exact (ih h hstop).trans (List.suffix_append _ _)
  | case5 pos depth deepest ho hc => split at h <;> cases h
  | case6 pos depth deepest c cs ho hc ih =>
    rw [Text.byteSize_cons, ← Nat.add_assoc] at hstop
    exact (ih h hstop).trans (List.suffix_cons c cs)

/-- No token begins in a text that ends with a close token and goes on behind that end, unless the
token holds the close token. -/
theorem after?_append_eq_none {token : List Char}
    (htoken : d.closing <:+: token → token = d.closing)
    (hend : d.closing <:+ cs) (h : Text.after? token cs = none) (rest : List Char) :
    Text.after? token (cs ++ rest) = none := by
  by_cases hlength : token.length ≤ cs.length
  · exact Text.after?_append_congr (b := []) hlength (by rwa [List.append_nil]) _
  · rw [Option.eq_none_iff_forall_ne_some]
    intro tail htail
    have hpre : cs <+: token := by
      refine List.prefix_of_prefix_length_le (List.prefix_append cs rest) ?_ (by omega)
      exact ⟨tail, (Text.after?_eq_some htail).symm⟩
    have heq := htoken (hend.isInfix.trans hpre.isInfix)
    have := hend.length_le
    rw [heq] at hlength
    omega

/-- A scan that ends with its text ends at the same place when more text follows. -/
theorem seek_append (hopening : ¬d.closing <:+: d.opening)
    (h : seek d pos depth deepest cs = .ok e) (hstop : e.stop = pos + Text.byteSize cs)
    (pos' : Nat) (rest : List Char) :
    seek d pos' depth deepest (cs ++ rest) = .ok ⟨pos' + Text.byteSize cs, e.maxDepth⟩ := by
  have hnoOpening : ∀ cs, d.closing <:+ cs → Text.after? d.opening cs = none →
      Text.after? d.opening (cs ++ rest) = none := fun cs hend ho =>
    after?_append_eq_none (fun hinfix => absurd hinfix hopening) hend ho rest
  have hnoClosing : ∀ cs, d.closing <:+ cs → Text.after? d.closing cs = none →
      Text.after? d.closing (cs ++ rest) = none := fun cs hend hc =>
    after?_append_eq_none (fun _ => rfl) hend hc rest
  -- What is left to scan ends with a close token at each step, so no token reaches over its end.
  have hend := closing_suffix_of_seek h hstop
  fun_induction seek d pos depth deepest cs generalizing pos' with
  | case1 pos depth deepest cs tail ho ih =>
    obtain rfl := Text.after?_eq_some ho
    rw [Text.byteSize_append, ← Nat.add_assoc] at hstop ⊢
    rw [List.append_assoc, seek_opening (Text.after?_append _ _)]
    exact ih h hstop _ (closing_suffix_of_seek h hstop)
  | case2 => cases h
  | case3 pos deepest cs ho tail hc =>
    obtain rfl := Text.after?_eq_some hc
    cases h
    have htail : tail = [] := by
      rw [Text.byteSize_append] at hstop
      exact Text.byteSize_eq_zero.1 (by simpa using hstop)
    have hno := hnoOpening _ hend ho
    rw [htail, List.append_nil] at hno ⊢
    rw [seek_last_closing hno (Text.after?_append _ _)]
  | case4 pos deepest cs ho tail hc depth ih =>
    obtain rfl := Text.after?_eq_some hc
    have hno := hnoOpening _ hend ho
    rw [Text.byteSize_append, ← Nat.add_assoc] at hstop ⊢
    rw [List.append_assoc] at hno ⊢
    rw [seek_closing hno (Text.after?_append _ _)]
    exact ih h hstop _ (closing_suffix_of_seek h hstop)
  | case5 pos depth deepest ho hc => split at h <;> cases h
  | case6 pos depth deepest c cs ho hc ih =>
    rw [Text.byteSize_cons, ← Nat.add_assoc] at hstop ⊢
    have hno : Text.after? d.opening (c :: (cs ++ rest)) = none := hnoOpening (c :: cs) hend ho
    have hno' : Text.after? d.closing (c :: (cs ++ rest)) = none := hnoClosing (c :: cs) hend hc
    rw [List.cons_append, seek_cons hno hno']
    exact ih h hstop _ (closing_suffix_of_seek h hstop)

/-- A scan that begins at another offset comes to the same result, with all offsets moved. -/
theorem seek_relocate (start' : Nat) (hpos : start ≤ pos) :
    seek d (pos - start + start') depth deepest cs =
      ((seek d pos depth deepest cs).map (End.relocate start start')).mapError
        (Imbalance.relocate start start') := by
  have hmove : ∀ n, pos - start + start' + n = pos + n - start + start' := fun n => by omega
  fun_induction seek d pos depth deepest cs with
  | case1 pos depth deepest cs rest ho ih =>
    rw [seek_opening ho, hmove]
    exact ih (by omega) (fun n => by omega)
  | case2 pos deepest cs ho rest hc =>
    rw [seek_unexpected ho hc]
    rfl
  | case3 pos deepest cs ho rest hc =>
    rw [seek_last_closing ho hc, hmove]
    rfl
  | case4 pos deepest cs ho rest hc depth ih =>
    rw [seek_closing ho hc, hmove]
    exact ih (by omega) (fun n => by omega)
  | case5 pos depth deepest ho hc =>
    rw [seek_nil]
    split <;> rfl
  | case6 pos depth deepest c cs ho hc ih =>
    rw [seek_cons ho hc, hmove]
    exact ih (by omega) (fun n => by omega)

end Seek

/-! ### Blocks of a document -/

section Documents

variable {d : Delimiters} {document : String} {tokens : TokenPair} {start maxDepth : Nat} {e : End}
  {front block behind rest : List Char}

/-- A block is found in a document when the scan from its start ends. -/
theorem locateEnd_of_split (tokens : TokenPair) {front rest : List Char}
    (h : document.toList = front ++ rest) :
    locateEnd document (Text.byteSize front) tokens =
      tokens.delimiters.bind fun d =>
        (seek d (Text.byteSize front) 0 0 rest).mapError (.unbalanced (Text.byteSize front)) := by
  have hcut : Text.cutAt? (Text.byteSize front) document.toList = some (front, rest) :=
    Text.cutAt?_eq_some_iff.2 ⟨h, rfl⟩
  unfold locateEnd
  cases tokens.delimiters with
  | error e => rfl
  | ok d => simp only [hcut]; rfl

theorem delimiters_of_eq_ok {tokens : TokenPair} (h : tokens.delimiters = .ok d) :
    d.opening = tokens.opening.toList ∧ d.closing = tokens.closing.toList := by
  unfold TokenPair.delimiters at h
  split at h
  · cases h
  · split at h
    · cases h
    · cases h
      exact ⟨rfl, rfl⟩

/-- Tokens that cannot be searched for are refused because one of them is empty. -/
theorem eq_emptyToken_of_delimiters {error : DocumentError} (h : tokens.delimiters = .error error) :
    ∃ side, error = .emptyToken side := by
  unfold TokenPair.delimiters at h
  split at h
  · exact ⟨_, (Except.error.inj h).symm⟩
  · split at h
    · exact ⟨_, (Except.error.inj h).symm⟩
    · cases h

/-- A block that is located divides its document, and the scan of the block alone comes to its
end. -/
theorem exists_block_of_locateEnd (h : locateEnd document start tokens = .ok e) :
    ∃ d front block behind, tokens.delimiters = .ok d ∧
      document.toList = front ++ (block ++ behind) ∧ byteSize front = start ∧
      e.stop = start + byteSize block ∧ seek d start 0 0 block = .ok e := by
  unfold locateEnd at h
  split at h
  · cases h
  · rename_i d hd
    split at h
    · cases h
    · rename_i front rest hcut
      obtain ⟨hdocument, hsize⟩ := Text.cutAt?_eq_some hcut
      cases hseek : seek d start 0 0 rest with
      | error imbalance => rw [hseek] at h; cases h
      | ok end' =>
        rw [hseek] at h
        cases h
        obtain ⟨block, behind, rfl, hstop, hblock⟩ := exists_split_of_seek hseek
        exact ⟨d, front, block, behind, hd, hdocument, hsize, hstop, hblock⟩

/-- A block lies between two cuts of the document from its start on. -/
theorem exists_split_of_locateEnd (h : document.toList = front ++ rest)
    (he : locateEnd document (byteSize front) tokens = .ok e) :
    ∃ block behind, rest = block ++ behind ∧ e.stop = byteSize front + byteSize block := by
  obtain ⟨-, front', block, behind, -, hdocument, hsize, hstop, -⟩ := exists_block_of_locateEnd he
  obtain ⟨-, hrest⟩ := Text.eq_of_byteSize_eq (h.symm.trans hdocument) hsize.symm
  exact ⟨block, behind, hrest, hstop⟩

/-- A text that a scan reads as a block is located as a block wherever it stands in a document,
unless the open token holds the close token. -/
theorem locateEnd_of_seek {pos : Nat} (hd : tokens.delimiters = .ok d)
    (hopening : ¬tokens.closing.toList <:+: tokens.opening.toList)
    (hblock : seek d pos 0 0 block = .ok e) (hstop : e.stop = pos + byteSize block)
    (hdocument : document.toList = front ++ (block ++ behind)) :
    locateEnd document (byteSize front) tokens =
      .ok ⟨byteSize front + byteSize block, e.maxDepth⟩ := by
  obtain ⟨ho, hc⟩ := delimiters_of_eq_ok hd
  rw [← ho, ← hc] at hopening
  rw [locateEnd_of_split tokens hdocument, hd, Except.bind, seek_append hopening hblock hstop]
  rfl

/-- A text that is a block with both its ends is found as a block wherever it stands in a document,
unless the open token holds the close token. -/
theorem locateEnd_of_whole {block : String}
    (hopening : ¬tokens.closing.toList <:+: tokens.opening.toList)
    (hblock : locateEnd block 0 tokens = .ok ⟨block.utf8ByteSize, maxDepth⟩)
    (hdocument : document.toList = front ++ (block.toList ++ behind)) :
    locateEnd document (byteSize front) tokens =
      .ok ⟨byteSize front + byteSize block.toList, maxDepth⟩ := by
  obtain ⟨d, front', text, rest, hd, hsplit, hsize, hstop, hseek⟩ := exists_block_of_locateEnd hblock
  obtain rfl := Text.byteSize_eq_zero.1 hsize
  rw [List.nil_append] at hsplit
  have hrest : rest = [] := by
    have := congrArg byteSize hsplit
    rw [Text.byteSize_toList, Text.byteSize_append] at this
    exact Text.byteSize_eq_zero.1 (by simp only at hstop; omega)
  rw [hrest, List.append_nil] at hsplit
  rw [hsplit] at hdocument ⊢
  exact locateEnd_of_seek hd hopening hseek hstop hdocument

/-- A block of a document is one of every document that agrees with it up to the end of the
block. -/
theorem locateEnd_of_extract_eq {document' : String}
    (hopening : ¬tokens.closing.toList <:+: tokens.opening.toList)
    (h : locateEnd document start tokens = .ok e)
    (hagree : document'.toUTF8.extract 0 e.stop = document.toUTF8.extract 0 e.stop) :
    locateEnd document' start tokens = .ok e := by
  obtain ⟨d, front, block, behind, hd, hdocument, rfl, hstop, hseek⟩ := exists_block_of_locateEnd h
  rw [← List.append_assoc] at hdocument
  rw [hstop, ← Text.byteSize_append] at hagree
  obtain ⟨rest, hdocument'⟩ := Text.exists_split_of_extract_eq hdocument hagree
  rw [List.append_assoc] at hdocument'
  rw [locateEnd_of_seek hd hopening hseek hstop hdocument', ← hstop]

/-- No block is located in a text that breaks off in front of the end of the block. -/
theorem locateEnd_ne_ok_of_truncated {text rest : String} {e' : End}
    (hopening : ¬tokens.closing.toList <:+: tokens.opening.toList)
    (h : locateEnd (text ++ rest) start tokens = .ok e) (hlt : text.utf8ByteSize < e.stop) :
    locateEnd text start tokens ≠ .ok e' := by
  -- The whole document would go on behind the end that is located in a part of it.
  intro htext
  obtain ⟨d, front, block, behind, hd, hdocument, rfl, hstop, hseek⟩ :=
    exists_block_of_locateEnd htext
  have hwhole : (text ++ rest).toList = front ++ (block ++ (behind ++ rest.toList)) := by
    rw [String.toList_append, hdocument, List.append_assoc, List.append_assoc]
  rw [locateEnd_of_seek hd hopening hseek hstop hwhole, ← hstop] at h
  obtain rfl : e' = e := Except.ok.inj h
  rw [← Text.byteSize_toList, hdocument] at hlt
  simp only [Text.byteSize_append] at hlt
  omega

/-- A document with another text in front of the offset where a block is searched gives the same
result, with all offsets moved. -/
theorem locateEnd_relocate {document' : String} {front' : List Char}
    (hdocument : document.toList = front ++ rest) (hdocument' : document'.toList = front' ++ rest) :
    locateEnd document' (byteSize front') tokens =
      ((locateEnd document (byteSize front) tokens).map
        (End.relocate (byteSize front) (byteSize front'))).mapError
          (DocumentError.relocate (byteSize front) (byteSize front')) := by
  rw [locateEnd_of_split tokens hdocument, locateEnd_of_split tokens hdocument']
  cases hd : tokens.delimiters with
  | error error =>
    obtain ⟨side, rfl⟩ := eq_emptyToken_of_delimiters hd
    rfl
  | ok d =>
    have hmove := @seek_relocate d (byteSize front) 0 0 (byteSize front) rest (byteSize front') le_rfl
    rw [Nat.sub_self, Nat.zero_add] at hmove
    simp only [Except.bind, hmove]
    cases seek d (byteSize front) 0 0 rest with
    | error imbalance =>
      simp only [Except.map, Except.mapError, DocumentError.relocate, Nat.sub_self, Nat.zero_add]
    | ok e => rfl

/-- The end of a block depends on the text of the block alone, unless the open token holds the close
token: it is the same in every document with the same bytes up to there, and no text that breaks off
inside the block has one. For all tokens, the text in front of the start has no part in the result
but for the offsets, which are counted behind it. -/
theorem locateEnd_local (tokens : TokenPair) :
    (¬tokens.closing.toList <:+: tokens.opening.toList →
      ∀ document start e, locateEnd document start tokens = .ok e →
        (∀ document' : String,
          document'.toUTF8.extract 0 e.stop = document.toUTF8.extract 0 e.stop →
            locateEnd document' start tokens = .ok e) ∧
        ∀ text rest, document = text ++ rest → start ≤ text.utf8ByteSize →
          text.utf8ByteSize < e.stop → ∀ e', locateEnd text start tokens ≠ .ok e') ∧
    ∀ front front' rest : String,
      let start := front.utf8ByteSize
      let start' := front'.utf8ByteSize
      (∀ e, locateEnd (front ++ rest) start tokens = .ok e →
        locateEnd (front' ++ rest) start' tokens = .ok ⟨e.stop - start + start', e.maxDepth⟩) ∧
      ∀ error, locateEnd (front ++ rest) start tokens = .error error →
        locateEnd (front' ++ rest) start' tokens = .error (error.relocate start start') := by
  refine ⟨fun hopening document start e h => ⟨fun document' => ?_, ?_⟩, fun front front' rest => ?_⟩
  · exact locateEnd_of_extract_eq hopening h
  · rintro text rest rfl - hlt e'
    exact locateEnd_ne_ok_of_truncated hopening h hlt
  · have hfront : (front ++ rest).toList = front.toList ++ rest.toList := String.toList_append
    have hfront' : (front' ++ rest).toList = front'.toList ++ rest.toList := String.toList_append
    have hmove := @locateEnd_relocate _ tokens _ _ _ _ hfront hfront'
    simp only [Text.byteSize_toList] at hmove
    refine ⟨fun e h => ?_, fun error h => ?_⟩
    · rw [hmove, h]
      rfl
    · rw [hmove, h]
      rfl

/-- A block in two documents that go on differently behind it, in a text that breaks off inside its
close token, and behind another text; and a failed search behind two texts. -/
theorem locateEnd_local_euro :
    let tokens := TokenPair.element "b"
    ¬tokens.closing.toList <:+: tokens.opening.toList ∧
      locateEnd "ü<b>€</b>!" 2 tokens = .ok ⟨12, 1⟩ ∧
      locateEnd "ü<b>€</b><b></b" 2 tokens = .ok ⟨12, 1⟩ ∧
      (∀ e, locateEnd "ü<b>€</b" 2 tokens ≠ .ok e) ∧
      locateEnd "€€<b>€</b>!" 6 tokens = .ok ⟨16, 1⟩ ∧
      locateEnd "üx</b>" 2 tokens = .error (.unbalanced 2 (.unexpectedClose 3)) ∧
      locateEnd "€€x</b>" 6 tokens = .error (.unbalanced 6 (.unexpectedClose 7)) := by
  intro tokens
  have hopening : ¬tokens.closing.toList <:+: tokens.opening.toList := by decide
  have hend : locateEnd "ü<b>€</b>!" 2 tokens = .ok ⟨12, 1⟩ := by decide +kernel
  have herror : locateEnd "üx</b>" 2 tokens = .error (.unbalanced 2 (.unexpectedClose 3)) := by
    decide +kernel
  have hagree : "ü<b>€</b><b></b".toUTF8.extract 0 12 = "ü<b>€</b>!".toUTF8.extract 0 12 := by
    decide +kernel
  obtain ⟨hlocal, hmoved⟩ := locateEnd_local tokens
  obtain ⟨hbehind, hbroken⟩ := hlocal hopening _ _ _ hend
  exact ⟨hopening, hend, hbehind _ hagree,
    hbroken "ü<b>€</b" ">!" (by decide) (by decide) (by decide),
    (hmoved "ü" "€€" "<b>€</b>!").1 _ hend, herror, (hmoved "ü" "€€" "x</b>").2 _ herror⟩

/-- When the open token holds the close token, one more character can turn the last close token of a
block into an open token. -/
example : locateEnd "bab" 0 ⟨"ba", "b"⟩ = .ok ⟨3, 1⟩ ∧
    locateEnd "baba" 0 ⟨"ba", "b"⟩ = .error (.unbalanced 0 (.unclosedAtEnd 2 4)) := by
  decide +kernel

end Documents

end Block

end BlockEdit
