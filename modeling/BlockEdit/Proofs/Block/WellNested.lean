import BlockEdit.Proofs.Block.Cuts

/-!
# Blocks are well nested

When tokens never overlap, a scan that begins at an open token comes past each later open token, and
what it finds from there on is what a scan finds that begins there. So the block of an inner open
token ends in front of the last close token of a block around it.

* `neverOverlap_of_separate`: how to see that tokens never overlap;
* `exists_inner_block`: a block inside a block, in terms of tokens;
* `locate_wellNested`: any two blocks of a document are disjoint or strictly nested.
-/

namespace BlockEdit.Block

open Text (byteSize OccursAt Overlaps Separate)

/-- An occurrence of `p` ends in front of a later occurrence of `q`. -/
theorem end_le_of_not_overlaps {p q cs : List Char} {i j : Nat} (hoverlaps : ¬Overlaps p q)
    (hwithin : ¬q <:+: p ∨ p = q) (hp : OccursAt p i cs) (hq : OccursAt q j cs) (hlt : i < j) :
    i + byteSize p ≤ j := by
  obtain ⟨front, rest, rfl, rfl⟩ := hp
  obtain ⟨front', rest', hcs, rfl⟩ := hq
  obtain ⟨mid, rfl, hmid⟩ := Text.exists_between hcs hlt.le
  have hne : mid ≠ [] := by
    rintro rfl
    simp at hlt
  rw [Text.byteSize_append]
  rcases List.append_eq_append_iff.1 hmid with ⟨y, rfl, -⟩ | ⟨y, rfl, hy⟩
  · rw [Text.byteSize_append]
    omega
  · -- The occurrence of `q` begins with `y`, the part of `p` behind `mid`.
    by_cases hnil : y = []
    · rw [hnil, List.append_nil]
    · exfalso
      have hyq : y <+: q ++ rest' := ⟨rest, hy.symm⟩
      rcases List.prefix_or_prefix_of_prefix hyq (List.prefix_append q rest') with h | h
      · exact hoverlaps ⟨mid, y, rfl, hne, hnil, h⟩
      · rcases hwithin with hwithin | rfl
        · exact hwithin (h.isInfix.trans ⟨mid, [], by simp⟩)
        · have hlength := h.length_le
          have := List.length_pos_iff.2 hne
          simp only [List.length_append] at hlength
          omega

/-- Tokens never overlap when they are separate and neither overlaps itself. -/
theorem neverOverlap_of_separate {tokens : TokenPair}
    (h : Separate tokens.opening.toList tokens.closing.toList)
    (hopening : ¬Overlaps tokens.opening.toList tokens.opening.toList)
    (hclosing : ¬Overlaps tokens.closing.toList tokens.closing.toList) :
    NeverOverlap tokens.literal := by
  have hoverlaps : ∀ a b, ¬Overlaps (tokens.literal a) (tokens.literal b) := by
    intro a b
    cases a <;> cases b
    exacts [hopening, h.not_overlaps, h.not_overlaps_of, hclosing]
  have hwithin : ∀ a b, a ≠ b → ¬tokens.literal a <:+: tokens.literal b := by
    intro a b hne
    cases a <;> cases b
    exacts [absurd rfl hne, h.not_within, h.not_within_of, absurd rfl hne]
  have hpart : ∀ a b, ¬tokens.literal b <:+: tokens.literal a ∨
      tokens.literal a = tokens.literal b := by
    intro a b
    by_cases hab : b = a
    · exact Or.inr (hab ▸ rfl)
    · exact Or.inl (hwithin b a hab)
  intro cs a b i j ha hb hne
  rcases lt_trichotomy i j with hlt | rfl | hlt
  · exact Or.inl (end_le_of_not_overlaps (hoverlaps a b) (hpart a b) ha hb hlt)
  · -- Two tokens at one place begin with each other.
    have hab : a ≠ b := fun h => hne (h ▸ rfl)
    obtain ⟨front, rest, rfl, hi⟩ := ha
    obtain ⟨front', rest', hcs, hi'⟩ := hb
    obtain ⟨-, hcs⟩ := Text.eq_of_byteSize_eq hcs (hi.trans hi'.symm)
    have hpre : tokens.literal a <+: tokens.literal b ++ rest' := ⟨rest, hcs⟩
    rcases List.prefix_or_prefix_of_prefix hpre (List.prefix_append _ rest') with h | h
    · exact absurd h.isInfix (hwithin a b hab)
    · exact absurd h.isInfix (hwithin b a hab.symm)
  · exact Or.inr (end_le_of_not_overlaps (hoverlaps b a) (hpart b a) hb ha hlt)

/-! ### A block inside a block -/

section Tokens

variable {front ts block : List Token} {first : Token} {stop cut : Nat}

/-- The tokens of a block from an inner open token `first` on hold a block that begins with it and
ends in front of the last token. -/
theorem exists_inner_block (hblock : IsBlock stop block) (hpre : block <+: front ++ first :: ts)
    (hfront : front ≠ []) (hcut : ∀ t ∈ front, t.stop ≤ cut) (hlt : cut < stop)
    (hfirst : first.side = .opening)
    (hsorted : (first :: ts).Pairwise fun t u => t.stop ≤ u.start) :
    ∃ stop' block', block' <+: first :: ts ∧ IsBlock stop' block' ∧
      ∃ last ∈ first :: ts, last.side = .closing ∧ last.stop = stop ∧ stop' ≤ last.start := by
  obtain ⟨inner, last, rfl, hside, hstop, hcount, hopen⟩ := hblock
  -- The block does not end in `front`, so all of `front` lies in front of its last token.
  have hinner : front <+: inner := by
    rcases List.prefix_or_prefix_of_prefix hpre (List.prefix_append front _) with h | h
    · have := hcut last (h.subset (by simp))
      omega
    · rcases List.prefix_concat_iff.1 h with rfl | h
      · have := hcut last (by simp)
        omega
      · exact h
  obtain ⟨later, rfl⟩ := hinner
  have hlater : later ++ [last] <+: first :: ts := by
    rw [List.append_assoc] at hpre
    exact (List.prefix_append_right_inj front).1 hpre
  obtain ⟨later, rfl⟩ : ∃ later', later = first :: later' := by
    cases later with
    | nil =>
      obtain rfl : last = first := (List.cons_prefix_cons.1 hlater).1
      rw [hside] at hfirst
      cases hfirst
    | cons u later =>
      obtain rfl : u = first := (List.cons_prefix_cons.1 hlater).1
      exact ⟨later, rfl⟩
  -- More blocks are open behind `front` than in front of it, so the others close again.
  have hbalance : opened (first :: later) ≤ closed (first :: later) := by
    have := hopen front hfront (List.prefix_append _ _)
    obtain ⟨side, a, b⟩ := last
    obtain rfl : side = .closing := hside
    simp only [opened_append, closed_append, opened_closing, closed_closing, opened_nil,
      closed_nil] at hcount
    omega
  obtain ⟨result, hverdict⟩ := exists_verdict 0 (first :: later)
  cases hverdict with
  | @block block' stop' maxDepth hts hblock' hmax =>
    refine ⟨stop', block', hts.trans ((List.prefix_append _ _).trans hlater), hblock', last,
      hlater.subset (by simp), hside, hstop, ?_⟩
    obtain ⟨inner', last', rfl, -, rfl, -, -⟩ := hblock'
    have hpairs := hsorted.sublist hlater.sublist
    exact (List.pairwise_append.1 hpairs).2.2 last' (hts.subset (by simp)) last (by simp)
  | @closedFirst t hts hside' =>
    obtain rfl : first = t := by simpa using hts
    rw [hfirst] at hside'
    cases hside'
  | unopened hts => cases hts
  | unclosed hts hopen' hdepth =>
    have := hopen' _ hts (List.prefix_refl _)
    omega

end Tokens

/-! ### Blocks of a document -/

section Documents

variable {document : String} {tokens : TokenPair} {d : Delimiters} {s s' e e' : Nat}
  {front rest : List Char}

/-- A block is located only between tokens that can be searched for. -/
theorem exists_delimiters_of_locate {span : Span} (h : locate document s tokens = .ok span) :
    ∃ d, tokens.delimiters = .ok d := by
  cases hd : tokens.delimiters with
  | ok d => exact ⟨d, rfl⟩
  | error error => simp [locate, locateEnd, hd] at h

/-- The block at an offset is located by the tokens from there on. -/
theorem locate_eq_ok_iff (hd : tokens.delimiters = .ok d)
    (hdocument : document.toList = front ++ rest) :
    locate document (byteSize front) tokens = .ok ⟨byteSize front, e⟩ ↔
      ∃ block, block <+: tokensFrom d (byteSize front) rest ∧ IsBlock e block := by
  obtain ⟨ho, hc⟩ := ne_empty_of_delimiters hd
  have hverdict : (∃ maxDepth, Verdict document.utf8ByteSize
      (tokensOf document (byteSize front) tokens) (.ok ⟨e, maxDepth⟩)) ↔ _ := exists_verdict_ok_iff
  rw [← tokensOf_of_split hd hdocument, ← hverdict]
  simp only [← locateEnd_eq_ok_iff ⟨front, rest, hdocument, rfl⟩ ho hc, locate]
  cases locateEnd document (byteSize front) tokens with
  | error error => simp
  | ok found =>
    obtain ⟨stop, maxDepth⟩ := found
    simp

/-- The block at an inner open token ends in front of the last token of the block around it. -/
theorem exists_locate_inner (hnever : NeverOverlap tokens.literal)
    (hs : OccursAt tokens.opening.toList s document.toList)
    (hs' : OccursAt tokens.opening.toList s' document.toList) (hlt : s < s')
    (h : locate document s tokens = .ok ⟨s, e⟩) (hinside : s' < e) :
    ∃ e', locate document s' tokens = .ok ⟨s', e'⟩ ∧ e' + tokens.closing.utf8ByteSize ≤ e := by
  obtain ⟨d, hd⟩ := exists_delimiters_of_locate h
  obtain ⟨hopening, hclosing⟩ := delimiters_of_eq_ok hd
  rw [← literal_of_delimiters hd] at hnever
  rw [← hopening] at hs hs'
  obtain ⟨front, rest, hdocument, rfl⟩ := hs
  obtain ⟨front', rest', hdocument', rfl⟩ := hs'
  obtain ⟨mid, rfl, hmid⟩ := Text.exists_between (hdocument.symm.trans hdocument') hlt.le
  obtain ⟨block, hpre, hblock⟩ := (locate_eq_ok_iff hd hdocument).1 h
  have htokens := tokensFrom_append_opening hnever (byteSize front) mid rest'
  rw [← Text.byteSize_append, ← hmid, tokensFrom_opening (Text.after?_append d.opening rest'),
    tokensFrom_opening (Text.after?_append d.opening rest)] at htokens
  have hbefore : tokensFrom d (byteSize front) mid ≠ [] := by
    intro hnil
    rw [hnil, List.nil_append, List.cons.injEq, Token.mk.injEq] at htokens
    omega
  have hcut : ∀ t ∈ tokensFrom d (byteSize front) mid, t.stop ≤ byteSize (front ++ mid) := by
    intro t ht
    rw [Text.byteSize_append]
    exact (bounds_of_mem_tokensFrom ht).2.2
  have hsorted := pairwise_tokensFrom d (byteSize (front ++ mid)) (d.opening ++ rest')
  rw [tokensFrom_opening (Text.after?_append d.opening rest')] at hsorted
  rw [tokensFrom_opening (Text.after?_append d.opening rest), htokens] at hpre
  obtain ⟨e', block', hpre', hblock', last, hlast, hside, rfl, hle⟩ :=
    exists_inner_block hblock hpre hbefore hcut hinside rfl hsorted
  rw [← tokensFrom_opening (Text.after?_append d.opening rest')] at hpre' hlast
  refine ⟨e', (locate_eq_ok_iff hd hdocument').2 ⟨block', hpre', hblock'⟩, ?_⟩
  obtain ⟨-, -, -, -, hstop⟩ := exists_split_of_mem_tokensFrom hlast
  rw [hside] at hstop
  rw [hstop, ← Text.byteSize_toList, ← hclosing]
  exact Nat.add_le_add_right hle _

theorem closing_pos_of_locate {span : Span} (h : locate document s tokens = .ok span) :
    0 < tokens.closing.utf8ByteSize := by
  obtain ⟨d, hd⟩ := exists_delimiters_of_locate h
  have := byteSize_literal_pos d .closing
  rwa [literal_of_delimiters hd, TokenPair.literal, Text.byteSize_toList] at this

/-- A located block is not empty. -/
theorem lt_of_locate (hs : Text.IsBoundary s document.toList)
    (h : locate document s tokens = .ok ⟨s, e⟩) : s < e := by
  obtain ⟨d, hd⟩ := exists_delimiters_of_locate h
  obtain ⟨front, rest, hdocument, rfl⟩ := hs
  obtain ⟨block, hpre, inner, last, rfl, -, rfl, -⟩ := (locate_eq_ok_iff hd hdocument).1 h
  have := bounds_of_mem_tokensFrom (hpre.subset (by simp : last ∈ inner ++ [last]))
  omega

/-- A block that begins at a later open token lies behind the first block or strictly inside it. -/
theorem behind_or_inside_of_lt (hnever : NeverOverlap tokens.literal)
    (hs : OccursAt tokens.opening.toList s document.toList)
    (hs' : OccursAt tokens.opening.toList s' document.toList) (hlt : s < s')
    (h : locate document s tokens = .ok ⟨s, e⟩)
    (h' : locate document s' tokens = .ok ⟨s', e'⟩) :
    e ≠ e' ∧ (e ≤ s' ∨ e' < e) := by
  have hnonempty : s' < e' := lt_of_locate (isBoundary_of_occursAt hs') h'
  by_cases hinside : s' < e
  · obtain ⟨e₁, h₁, hle⟩ := exists_locate_inner hnever hs hs' hlt h hinside
    obtain rfl : e' = e₁ := by
      rw [h'] at h₁
      cases h₁
      rfl
    have := closing_pos_of_locate h
    omega
  · omega

/-- When tokens never overlap, a block is located at every open token inside a block, and it ends in
front of the last token of that block. So two blocks that begin at different open tokens are
disjoint, or one of them lies strictly inside the other, and they never share an end. -/
theorem locate_wellNested (hnever : NeverOverlap tokens.literal)
    (hs : OccursAt tokens.opening.toList s document.toList)
    (hs' : OccursAt tokens.opening.toList s' document.toList)
    (h : locate document s tokens = .ok ⟨s, e⟩) :
    (s < s' → s' < e → ∃ e', locate document s' tokens = .ok ⟨s', e'⟩ ∧
      e' + tokens.closing.utf8ByteSize ≤ e) ∧
    ∀ e', s ≠ s' → locate document s' tokens = .ok ⟨s', e'⟩ →
      e ≠ e' ∧ (e ≤ s' ∨ e' ≤ s ∨ s < s' ∧ e' < e ∨ s' < s ∧ e < e') := by
  refine ⟨fun hlt hinside => exists_locate_inner hnever hs hs' hlt h hinside,
    fun e' hne h' => ?_⟩
  rcases Nat.lt_or_gt_of_ne hne with hlt | hlt
  · have := behind_or_inside_of_lt hnever hs hs' hlt h h'
    omega
  · have := behind_or_inside_of_lt hnever hs' hs hlt h' h
    omega

/-- Two blocks beside each other in a third one, with a token that is the beginning of a longer
name. -/
theorem locate_wellNested_two_inner :
    let document := "x<b><b>ü</b><br></b></b>"
    let tokens := TokenPair.element "b"
    NeverOverlap tokens.literal ∧ OccursAt tokens.opening.toList 1 document.toList ∧
      OccursAt tokens.opening.toList 4 document.toList ∧
      locate document 1 tokens = .ok ⟨1, 25⟩ ∧
      ∃ e', locate document 4 tokens = .ok ⟨4, e'⟩ ∧ e' + 4 ≤ 25 := by
  intro document tokens
  have hnever : NeverOverlap tokens.literal :=
    neverOverlap_of_separate ⟨by decide, by decide, by decide, by decide⟩ (by decide) (by decide)
  have hs : OccursAt tokens.opening.toList 1 document.toList :=
    ⟨['x'], "><b>ü</b><br></b></b>".toList, by decide, by decide⟩
  have hs' : OccursAt tokens.opening.toList 4 document.toList :=
    ⟨"x<b>".toList, ">ü</b><br></b></b>".toList, by decide, by decide⟩
  have h : locate document 1 tokens = .ok ⟨1, 25⟩ := by decide +kernel
  exact ⟨hnever, hs, hs', h, (locate_wellNested hnever hs hs' h).1 (by decide) (by decide)⟩

end Documents

end BlockEdit.Block
