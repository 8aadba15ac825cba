import BlockEdit.Proofs.Block.Cuts

/-!
# Blocks by counting

For separate tokens, the tokens of a text are just the matches of two searches from left to right,
one for each literal. So how deep a block nests can be told by counting matches, in any part of the
document that begins with the block, even in one that breaks off inside a token.

* `length_occurrencesFrom`: both ways to count agree on a text;
* `tokensFrom_of_isBlock`, `closed_lt_opened_of_isBlock`: the tokens of a text that breaks off at
  the end of a block, or in front of it;
* `locateEnd_counts`: what this says of the blocks of a document.
-/

namespace BlockEdit.Block

open Text (byteSize OccursAt Separate)

section Tokens

variable {d : Delimiters} {pos stop : Nat} {text rest : List Char} {block : List Token}

/-- For separate tokens, the scan finds as many tokens as two searches find matches. -/
theorem length_occurrencesFrom (h : Separate d.opening d.closing) (pos n : Nat) (cs : List Char) :
    (Text.occurrencesFrom d.opening d.opening_ne_nil n cs).length = opened (tokensFrom d pos cs) ∧
      (Text.occurrencesFrom d.closing d.closing_ne_nil n cs).length =
        closed (tokensFrom d pos cs) := by
  fun_induction tokensFrom d pos cs generalizing n with
  | case1 pos cs rest ho next ih =>
    obtain rfl := Text.after?_eq_some ho
    rw [Text.occurrencesFrom_of_match ho, Text.occurrencesFrom_append_of_separate h.symm,
      opened_opening, closed_opening, List.length_cons, (ih _).1, (ih _).2]
    exact ⟨rfl, rfl⟩
  | case2 pos cs ho rest hc next ih =>
    obtain rfl := Text.after?_eq_some hc
    rw [Text.occurrencesFrom_of_match hc, Text.occurrencesFrom_append_of_separate h,
      opened_closing, closed_closing, List.length_cons, (ih _).1, (ih _).2]
    exact ⟨rfl, rfl⟩
  | case3 pos ho hc => simp
  | case4 pos c cs ho hc ih =>
    rw [Text.occurrencesFrom_cons ho, Text.occurrencesFrom_cons hc]
    exact ih _

/-- A text that breaks off at the end of a block has the tokens of the block. -/
theorem tokensFrom_of_isBlock (hd : Incomparable d)
    (hpre : block <+: tokensFrom d pos (text ++ rest))
    (hblock : IsBlock (pos + byteSize text) block) : tokensFrom d pos text = block := by
  obtain ⟨inner, last, rfl, -, hstop, -, -⟩ := hblock
  obtain ⟨later, hlater, hbehind⟩ := exists_tokensFrom_append hd pos text rest
  have hsorted := pairwise_tokensFrom d pos (text ++ rest)
  rw [hlater] at hpre hsorted
  rcases List.prefix_or_prefix_of_prefix hpre (List.prefix_append _ later) with h | h
  · obtain ⟨more, hmore⟩ := h
    cases more with
    | nil => rw [← hmore, List.append_nil]
    | cons t more =>
      -- A token behind the last one of the block would end behind the text.
      have ht : t ∈ tokensFrom d pos text := by simp [← hmore]
      have hlast : last.stop ≤ t.start := by
        rw [← hmore, List.append_assoc, List.append_assoc] at hsorted
        have := (List.pairwise_append.1 hsorted).2.1
        exact (List.pairwise_cons.1 this).1 t (by simp)
      have := bounds_of_mem_tokensFrom ht
      omega
  · rcases List.prefix_concat_iff.1 h with h | ⟨more, rfl⟩
    · exact h
    · rw [List.append_assoc, List.prefix_append_right_inj] at hpre
      have := hbehind last (hpre.subset (by simp))
      omega

/-- A text that breaks off in front of the end of a block, behind some token, leaves blocks open. -/
theorem closed_lt_opened_of_isBlock (hd : Incomparable d)
    (hpre : block <+: tokensFrom d pos (text ++ rest)) (hblock : IsBlock stop block)
    (hlt : pos + byteSize text < stop) (hne : tokensFrom d pos text ≠ []) :
    closed (tokensFrom d pos text) < opened (tokensFrom d pos text) := by
  obtain ⟨inner, last, rfl, -, hstop, -, hopen⟩ := hblock
  obtain ⟨later, hlater, -⟩ := exists_tokensFrom_append hd pos text rest
  have hlast : last ∉ tokensFrom d pos text := fun h => by
    have := bounds_of_mem_tokensFrom h
    omega
  rw [hlater] at hpre
  refine hopen _ hne ?_
  rcases List.prefix_or_prefix_of_prefix hpre (List.prefix_append _ later) with h | h
  · exact absurd (h.subset (by simp)) hlast
  · rcases List.prefix_concat_iff.1 h with h | h
    · exact absurd (by simp [h]) hlast
    · exact h

end Tokens

/-! ### Blocks of a document -/

section Documents

variable {document : String} {tokens : TokenPair} {d : Delimiters} {start : Nat}

/-- For separate tokens, matches in a text are counted by its tokens. -/
theorem count_of_separate (hd : tokens.delimiters = .ok d) (h : Separate d.opening d.closing)
    (pos : Nat) (text : List Char) :
    Anchor.count (String.ofList text) tokens.opening = opened (tokensFrom d pos text) ∧
      Anchor.count (String.ofList text) tokens.closing = closed (tokensFrom d pos text) := by
  obtain ⟨ho, hc⟩ := delimiters_of_eq_ok hd
  have hcount := length_occurrencesFrom h pos 0 text
  simp only [Anchor.count, Text.occurrences, ← ho, ← hc, dif_neg d.opening_ne_nil,
    dif_neg d.closing_ne_nil, String.toList_ofList]
  exact hcount

theorem delimiters_of_separate (h : Separate tokens.opening.toList tokens.closing.toList) :
    ∃ d, tokens.delimiters = .ok d := by
  refine delimiters_eq_ok (fun hnil => h.not_within ?_) (fun hnil => h.not_within_of ?_)
  · simp [hnil]
  · simp [hnil]

/-- Let the tokens be separate, each of them may overlap itself. In a block as it is located in a
document, both tokens have equally many matches; in what stands in front of each offset inside it,
behind the first token, the open token has more. Where blocks are open up to the end, their number
is the difference of the matches from the start on. -/
theorem locateEnd_counts (h : Separate tokens.opening.toList tokens.closing.toList)
    (hstart : OccursAt tokens.opening.toList start document.toList) :
    (∀ e, locateEnd document start tokens = .ok e →
      (∃ text, (⟨start, e.stop⟩ : Span).slice? document = some text ∧
        Anchor.count text tokens.opening = Anchor.count text tokens.closing) ∧
      ∀ p, Text.IsBoundary p document.toList → start + tokens.opening.utf8ByteSize ≤ p →
        p < e.stop →
        ∃ text, (⟨start, p⟩ : Span).slice? document = some text ∧
          Anchor.count text tokens.closing < Anchor.count text tokens.opening) ∧
    ∀ s depth length,
      locateEnd document start tokens = .error (.unbalanced s (.unclosedAtEnd depth length)) →
      ∃ text, (⟨start, document.utf8ByteSize⟩ : Span).slice? document = some text ∧
        Anchor.count text tokens.opening = Anchor.count text tokens.closing + depth := by
  obtain ⟨d, hd⟩ := delimiters_of_separate h
  obtain ⟨hone, hcne⟩ := ne_empty_of_delimiters hd
  obtain ⟨ho, hc⟩ := delimiters_of_eq_ok hd
  rw [← ho, ← hc] at h
  have hboundary := isBoundary_of_occursAt hstart
  rw [← ho] at hstart
  obtain ⟨front, tail, hdocument, rfl⟩ := hstart
  have hincomparable : Incomparable d := ⟨h.not_within, h.not_within_of⟩
  have hblock : ∀ e, locateEnd document (byteSize front) tokens = .ok e →
      ∃ block, block <+: tokensFrom d (byteSize front) (d.opening ++ tail) ∧
        IsBlock e.stop block := by
    intro e he
    rw [locateEnd_eq_ok_iff hboundary hone hcne, tokensOf_of_split hd hdocument] at he
    exact exists_verdict_ok_iff.1 ⟨e.maxDepth, he⟩
  refine ⟨fun e he => ⟨?_, fun p hp hle hlt => ?_⟩, fun s depth length hunclosed => ?_⟩
  · obtain ⟨block, hpre, hblock⟩ := hblock e he
    obtain ⟨text, rest, hrest, hstop⟩ := exists_split_of_locateEnd hdocument he
    rw [hrest] at hdocument hpre
    rw [hstop] at hblock
    refine ⟨String.ofList text, ?_, ?_⟩
    · rw [hstop, ← Text.byteSize_append]
      exact Span.slice?_of_split hdocument
    · obtain ⟨hopened, hclosed⟩ := count_of_separate hd h (byteSize front) text
      rw [hopened, hclosed, tokensFrom_of_isBlock hincomparable hpre hblock]
      obtain ⟨-, -, -, -, -, hcount, -⟩ := hblock
      exact hcount
  · obtain ⟨block, hpre, hblock⟩ := hblock e he
    obtain ⟨front', rest, hdocument', rfl⟩ := hp
    rw [← Text.byteSize_toList, ← ho] at hle
    obtain ⟨text, rfl, hrest⟩ := Text.exists_between (hdocument.symm.trans hdocument') (by omega)
    rw [hrest] at hdocument hpre
    rw [Text.byteSize_append] at hle hlt
    obtain ⟨more, rfl, -⟩ := Text.exists_between hrest (by omega)
    refine ⟨String.ofList (d.opening ++ more), Span.slice?_of_split hdocument, ?_⟩
    obtain ⟨hopened, hclosed⟩ := count_of_separate hd h (byteSize front) (d.opening ++ more)
    rw [hopened, hclosed]
    refine closed_lt_opened_of_isBlock hincomparable hpre hblock hlt ?_
    rw [tokensFrom_opening (Text.after?_append d.opening more)]
    exact List.cons_ne_nil _ _
  · rw [locateEnd_eq_unbalanced_iff hboundary hone hcne, tokensOf_of_split hd hdocument,
      verdict_unclosedAtEnd_iff] at hunclosed
    obtain ⟨-, -, -, -, hdepth⟩ := hunclosed
    have hall : document.toList = front ++ (d.opening ++ tail ++ []) := by
      rw [List.append_nil, hdocument]
    refine ⟨String.ofList (d.opening ++ tail), ?_, ?_⟩
    · rw [← Text.byteSize_toList, hdocument]
      exact Span.slice?_of_split hall
    · obtain ⟨hopened, hclosed⟩ := count_of_separate hd h (byteSize front) (d.opening ++ tail)
      rw [hopened, hclosed, hdepth]

/-- A block whose open token overlaps itself, and a part of it that ends inside an open token. -/
theorem locateEnd_counts_self_overlap :
    let document := "ü((((x)))"
    let tokens : TokenPair := ⟨"((", ")"⟩
    Separate tokens.opening.toList tokens.closing.toList ∧
      OccursAt tokens.opening.toList 2 document.toList ∧
      locateEnd document 2 tokens = .ok ⟨9, 2⟩ ∧
      (∃ text, (⟨2, 9⟩ : Span).slice? document = some text ∧
        Anchor.count text tokens.opening = Anchor.count text tokens.closing) ∧
      ∃ text, (⟨2, 5⟩ : Span).slice? document = some text ∧
        Anchor.count text tokens.closing < Anchor.count text tokens.opening := by
  intro document tokens
  have h : Separate tokens.opening.toList tokens.closing.toList :=
    ⟨by decide, by decide, by decide, by decide⟩
  have hstart : OccursAt tokens.opening.toList 2 document.toList :=
    ⟨['ü'], "((x)))".toList, by decide, by decide⟩
  have hend : locateEnd document 2 tokens = .ok ⟨9, 2⟩ := by decide +kernel
  have hinside : Text.IsBoundary 5 document.toList := Text.isSome_cutAt?_iff.1 (by decide)
  obtain ⟨hequal, hless⟩ := (locateEnd_counts h hstart).1 _ hend
  exact ⟨h, hstart, hend, hequal, hless 5 hinside (by decide) (by decide)⟩

end Documents

end BlockEdit.Block
