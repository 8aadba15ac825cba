import BlockEdit.Proofs.Block.Reading
import BlockEdit.Proofs.Edit.Idempotence
import BlockEdit.Proofs.Text.Overlap

/-!
# The tokens on both sides of a cut

`tokensFrom` reads a text as a whole. Here the text is cut in two, and the question is what its
tokens have to do with the tokens of its parts.

* `exists_split_of_mem_tokensFrom`, `pairwise_tokensFrom`: each token stands where it says, and the
  tokens stand one behind another;
* `exists_tokensFrom_append`: a text that breaks off has the tokens that end in it, even where it
  breaks off inside a token;
* `tokensFrom_append_opening`: when tokens never overlap, the scan halts in front of each open token
  and goes on as if it began there.
-/

namespace BlockEdit

/-- The literal of a token. -/
def TokenPair.literal (tokens : TokenPair) : TokenSide → List Char
  | .opening => tokens.opening.toList
  | .closing => tokens.closing.toList

/-- The literal of a token. -/
def Delimiters.literal (d : Delimiters) : TokenSide → List Char
  | .opening => d.opening
  | .closing => d.closing

namespace Block

open Text (byteSize OccursAt)

/-- In no text do two different occurrences of the literals share a byte. -/
def NeverOverlap (literal : TokenSide → List Char) : Prop :=
  ∀ cs a b i j, OccursAt (literal a) i cs → OccursAt (literal b) j cs → (a, i) ≠ (b, j) →
    i + byteSize (literal a) ≤ j ∨ j + byteSize (literal b) ≤ i

section Tokens

variable {d : Delimiters} {pos : Nat} {cs front rest : List Char} {t : Token}

theorem literal_ne_nil (d : Delimiters) (side : TokenSide) : d.literal side ≠ [] := by
  cases side
  · exact d.opening_ne_nil
  · exact d.closing_ne_nil

theorem byteSize_literal_pos (d : Delimiters) (side : TokenSide) :
    0 < byteSize (d.literal side) :=
  Text.byteSize_pos (literal_ne_nil d side)

/-- The text holds each token where the token says. -/
theorem exists_split_of_mem_tokensFrom (ht : t ∈ tokensFrom d pos cs) :
    ∃ front rest, cs = front ++ (d.literal t.side ++ rest) ∧ t.start = pos + byteSize front ∧
      t.stop = t.start + byteSize (d.literal t.side) := by
  fun_induction tokensFrom d pos cs with
  | case1 pos cs rest ho next ih =>
    obtain rfl := Text.after?_eq_some ho
    rcases List.mem_cons.1 ht with rfl | ht
    · exact ⟨[], rest, rfl, rfl, rfl⟩
    · obtain ⟨front, rest, rfl, hstart, hstop⟩ := ih ht
      exact ⟨d.opening ++ front, rest, by simp, by simp [hstart, next]; omega, hstop⟩
  | case2 pos cs ho rest hc next ih =>
    obtain rfl := Text.after?_eq_some hc
    rcases List.mem_cons.1 ht with rfl | ht
    · exact ⟨[], rest, rfl, rfl, rfl⟩
    · obtain ⟨front, rest, rfl, hstart, hstop⟩ := ih ht
      exact ⟨d.closing ++ front, rest, by simp, by simp [hstart, next]; omega, hstop⟩
  | case3 pos ho hc => cases ht
  | case4 pos c cs ho hc ih =>
    obtain ⟨front, rest, rfl, hstart, hstop⟩ := ih ht
    exact ⟨c :: front, rest, rfl, by simp [hstart]; omega, hstop⟩

/-- A token lies in the text that it is a token of. -/
theorem bounds_of_mem_tokensFrom (ht : t ∈ tokensFrom d pos cs) :
    pos ≤ t.start ∧ t.start < t.stop ∧ t.stop ≤ pos + byteSize cs := by
  obtain ⟨front, rest, rfl, hstart, hstop⟩ := exists_split_of_mem_tokensFrom ht
  have := byteSize_literal_pos d t.side
  simp only [Text.byteSize_append]
  omega

/-- Each token ends in front of the next ones. -/
theorem pairwise_tokensFrom (d : Delimiters) (pos : Nat) (cs : List Char) :
    (tokensFrom d pos cs).Pairwise fun t u => t.stop ≤ u.start := by
  fun_induction tokensFrom d pos cs with
  | case1 pos cs rest ho next ih =>
    exact List.pairwise_cons.2 ⟨fun u hu => (bounds_of_mem_tokensFrom hu).1, ih⟩
  | case2 pos cs ho rest hc next ih =>
    exact List.pairwise_cons.2 ⟨fun u hu => (bounds_of_mem_tokensFrom hu).1, ih⟩
  | case3 => exact List.Pairwise.nil
  | case4 pos c cs ho hc ih => exact ih

end Tokens

/-! ### A text that breaks off -/

section Breaks

variable {d : Delimiters} {pos : Nat} {front rest : List Char} {side : TokenSide}

/-- Neither token is a part of the other. -/
def Incomparable (d : Delimiters) : Prop := ¬d.opening <:+: d.closing ∧ ¬d.closing <:+: d.opening

/-- The beginning of a token holds no token. -/
theorem tokensFrom_of_broken (hd : Incomparable d) (hpre : front <+: d.literal side)
    (hne : front ≠ d.literal side) : tokensFrom d pos front = [] := by
  refine List.eq_nil_iff_forall_not_mem.2 fun t ht => ?_
  obtain ⟨x, y, rfl, -, -⟩ := exists_split_of_mem_tokensFrom ht
  have hwithin : d.literal t.side <:+: d.literal side :=
    (show d.literal t.side <:+: x ++ (d.literal t.side ++ y) from ⟨x, y, by simp⟩).trans
      hpre.isInfix
  by_cases hside : t.side = side
  · -- The token is as long as the whole literal, of which only a part is there.
    have hlength := hpre.length_le
    rw [hside] at hpre hne hlength
    have : x = [] ∧ y = [] := by
      simp only [List.length_append] at hlength
      constructor <;> (refine List.eq_nil_of_length_eq_zero ?_; omega)
    obtain ⟨rfl, rfl⟩ := this
    exact hne (by simp)
  · revert hwithin hside
    cases t.side <;> cases side <;> simp [Delimiters.literal, hd.1, hd.2]

/-- A token at the head of a text is in front of the cut, or the cut goes through it. -/
theorem literal_cut {tail : List Char} (h : front ++ rest = d.literal side ++ tail) :
    (∃ front', front = d.literal side ++ front' ∧ tail = front' ++ rest) ∨
      front <+: d.literal side ∧ front ≠ d.literal side := by
  by_cases hpre : d.literal side <+: front
  · obtain ⟨front', rfl⟩ := hpre
    rw [List.append_assoc] at h
    exact Or.inl ⟨front', rfl, (List.append_cancel_left h).symm⟩
  · have hliteral : d.literal side <+: front ++ rest := ⟨tail, h.symm⟩
    refine Or.inr ⟨(List.prefix_or_prefix_of_prefix hliteral
      (List.prefix_append _ _)).resolve_left hpre, ?_⟩
    rintro rfl
    exact hpre (List.prefix_refl _)

theorem byteSize_lt_of_broken (hpre : front <+: d.literal side) (hne : front ≠ d.literal side) :
    byteSize front < byteSize (d.literal side) := by
  obtain ⟨y, hy⟩ := hpre
  have hpos : byteSize y ≠ 0 := fun h => by
    rw [Text.byteSize_eq_zero.1 h, List.append_nil] at hy
    exact hne hy
  rw [← hy, Text.byteSize_append]
  omega

/-- Tokens from a broken one on end behind the cut. -/
theorem lt_stop_of_broken (hpre : front <+: d.literal side) (hne : front ≠ d.literal side)
    {t : Token} {tail : List Char}
    (ht : t ∈ ⟨side, pos, pos + byteSize (d.literal side)⟩ ::
      tokensFrom d (pos + byteSize (d.literal side)) tail) :
    pos + byteSize front < t.stop := by
  have hlt := byteSize_lt_of_broken hpre hne
  rcases List.mem_cons.1 ht with rfl | ht
  · simp only; omega
  · have := bounds_of_mem_tokensFrom ht
    omega

/-- One token of a text that is cut in two: it is left whole in the front, or it is broken. -/
theorem exists_append_of_head (side : TokenSide) {tail : List Char} {next : Nat}
    (hd : Incomparable d) (hcs : front ++ rest = d.literal side ++ tail)
    (hnext : next = pos + byteSize (d.literal side))
    (hfront : ∀ front', front = d.literal side ++ front' →
      tokensFrom d pos front = ⟨side, pos, next⟩ :: tokensFrom d next front')
    (ih : ∀ front', front' ++ rest = tail →
      ∃ later, tokensFrom d next tail = tokensFrom d next front' ++ later ∧
        ∀ t ∈ later, next + byteSize front' < t.stop) :
    ∃ later, ⟨side, pos, next⟩ :: tokensFrom d next tail = tokensFrom d pos front ++ later ∧
      ∀ t ∈ later, pos + byteSize front < t.stop := by
  subst hnext
  rcases literal_cut hcs with ⟨front', rfl, rfl⟩ | ⟨hpre, hne⟩
  · obtain ⟨later, hlater, hstop⟩ := ih front' rfl
    refine ⟨later, by rw [hfront front' rfl, hlater, List.cons_append], fun t ht => ?_⟩
    rw [Text.byteSize_append, ← Nat.add_assoc]
    exact hstop t ht
  · rw [tokensFrom_of_broken hd hpre hne]
    exact ⟨_, rfl, fun t ht => lt_stop_of_broken hpre hne ht⟩

/-- The tokens of a text in front of `rest` are the first ones of the whole text; the others end
behind it. -/
theorem exists_tokensFrom_append (hd : Incomparable d) (pos : Nat) (front rest : List Char) :
    ∃ later, tokensFrom d pos (front ++ rest) = tokensFrom d pos front ++ later ∧
      ∀ t ∈ later, pos + byteSize front < t.stop := by
  generalize hcs : front ++ rest = cs
  fun_induction tokensFrom d pos cs generalizing front with
  | case1 pos cs tail ho next ih =>
    rw [Text.after?_eq_some ho] at hcs
    refine exists_append_of_head .opening hd hcs rfl (fun front' hfront => ?_) ih
    exact tokensFrom_opening (Text.after?_eq_some_iff.2 hfront)
  | case2 pos cs ho tail hc next ih =>
    have hno := Text.after?_eq_none_of_append (hcs ▸ ho)
    rw [Text.after?_eq_some hc] at hcs
    refine exists_append_of_head .closing hd hcs rfl (fun front' hfront => ?_) ih
    exact tokensFrom_closing hno (Text.after?_eq_some_iff.2 hfront)
  | case3 pos ho hc =>
    obtain ⟨rfl, rfl⟩ := List.append_eq_nil_iff.1 hcs
    exact ⟨[], by simp, by simp⟩
  | case4 pos c cs ho hc ih =>
    cases front with
    | nil =>
      refine ⟨_, by rw [tokensFrom_nil, List.nil_append], fun t ht => ?_⟩
      have := bounds_of_mem_tokensFrom ht
      simp only [Text.byteSize_nil]
      omega
    | cons c' front =>
      obtain ⟨rfl, rfl⟩ : c' = c ∧ front ++ rest = cs := List.cons_eq_cons.1 hcs
      obtain ⟨later, hlater, hstop⟩ := ih front rfl
      rw [tokensFrom_cons (Text.after?_eq_none_of_append ho) (Text.after?_eq_none_of_append hc)]
      refine ⟨later, hlater, fun t ht => ?_⟩
      rw [Text.byteSize_cons, ← Nat.add_assoc]
      exact hstop t ht

end Breaks

/-! ### A cut in front of an open token -/

section Opening

variable {d : Delimiters} {pos : Nat} {front rest : List Char} {side : TokenSide}

/-- When tokens never overlap, no token that begins in front of an open token reaches into it. -/
theorem after?_eq_none_of_neverOverlap (hnever : NeverOverlap d.literal) (side : TokenSide)
    (hfront : front ≠ []) (h : Text.after? (d.literal side) front = none) (rest : List Char) :
    Text.after? (d.literal side) (front ++ (d.opening ++ rest)) = none := by
  rw [Option.eq_none_iff_forall_ne_some] at h ⊢
  intro tail htail
  have hcs := Text.after?_eq_some htail
  rcases literal_cut hcs with ⟨front', rfl, -⟩ | ⟨hpre, hbroken⟩
  · exact h front' (Text.after?_append _ _)
  · have hhead : OccursAt (d.literal side) 0 (front ++ (d.opening ++ rest)) :=
      ⟨[], tail, by simpa using hcs, rfl⟩
    have hopening : OccursAt (d.literal .opening) (byteSize front)
        (front ++ (d.opening ++ rest)) := ⟨front, rest, rfl, rfl⟩
    have hpos : byteSize front ≠ 0 := fun h => hfront (Text.byteSize_eq_zero.1 h)
    have hlt := byteSize_lt_of_broken hpre hbroken
    have := byteSize_literal_pos d .opening
    have hne : (side, 0) ≠ (TokenSide.opening, byteSize front) := fun h =>
      hpos (congrArg Prod.snd h).symm
    rcases hnever _ _ _ _ _ hhead hopening hne with h | h <;> omega

/-- When tokens never overlap, the scan halts in front of each open token, and the tokens from there
on are those of the text that begins there. -/
theorem tokensFrom_append_opening (hnever : NeverOverlap d.literal) (pos : Nat)
    (front rest : List Char) :
    tokensFrom d pos (front ++ (d.opening ++ rest)) =
      tokensFrom d pos front ++ tokensFrom d (pos + byteSize front) (d.opening ++ rest) := by
  fun_induction tokensFrom d pos front with
  | case1 pos front tail ho next ih =>
    obtain rfl := Text.after?_eq_some ho
    have hwhole : Text.after? d.opening (d.opening ++ tail ++ (d.opening ++ rest)) =
        some (tail ++ (d.opening ++ rest)) := by
      rw [List.append_assoc, Text.after?_append]
    rw [tokensFrom_opening hwhole, ih, List.cons_append, Text.byteSize_append, Nat.add_assoc]
  | case2 pos front ho tail hc next ih =>
    obtain rfl := Text.after?_eq_some hc
    have hno := after?_eq_none_of_neverOverlap hnever .opening
      (List.append_ne_nil_of_left_ne_nil d.closing_ne_nil tail) ho rest
    have hwhole : Text.after? d.closing (d.closing ++ tail ++ (d.opening ++ rest)) =
        some (tail ++ (d.opening ++ rest)) := by
      rw [List.append_assoc, Text.after?_append]
    rw [tokensFrom_closing hno hwhole, ih, List.cons_append, Text.byteSize_append, Nat.add_assoc]
  | case3 pos ho hc => simp
  | case4 pos c front ho hc ih =>
    have hopening := after?_eq_none_of_neverOverlap hnever .opening (by simp) ho rest
    have hclosing := after?_eq_none_of_neverOverlap hnever .closing (by simp) hc rest
    rw [List.cons_append] at hopening hclosing ⊢
    rw [tokensFrom_cons hopening hclosing, ih, Text.byteSize_cons, Nat.add_assoc]

end Opening

/-! ### The tokens of a document -/

section Documents

variable {document : String} {tokens : TokenPair} {d : Delimiters} {front rest : List Char}

theorem literal_of_delimiters (hd : tokens.delimiters = .ok d) : d.literal = tokens.literal := by
  obtain ⟨ho, hc⟩ := delimiters_of_eq_ok hd
  funext side
  cases side
  exacts [ho, hc]

theorem ne_empty_of_delimiters (hd : tokens.delimiters = .ok d) :
    tokens.opening ≠ "" ∧ tokens.closing ≠ "" := by
  obtain ⟨ho, hc⟩ := delimiters_of_eq_ok hd
  exact ⟨fun h => d.opening_ne_nil (by simp [ho, h]), fun h => d.closing_ne_nil (by simp [hc, h])⟩

theorem tokensOf_of_split (hd : tokens.delimiters = .ok d)
    (hdocument : document.toList = front ++ rest) :
    tokensOf document (byteSize front) tokens = tokensFrom d (byteSize front) rest := by
  simp only [tokensOf, hd, hdocument, Text.cutAt?_append]

theorem isBoundary_of_occursAt {pat cs : List Char} {n : Nat} (h : OccursAt pat n cs) :
    Text.IsBoundary n cs := by
  obtain ⟨front, rest, hcs, hsize⟩ := h
  exact ⟨front, pat ++ rest, hcs, hsize⟩

end Documents

end Block

end BlockEdit
