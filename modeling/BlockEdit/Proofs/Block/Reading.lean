import BlockEdit.Document.Block
import Mathlib.Data.List.Infix
import Mathlib.Order.Bounds.Basic
import Mathlib.Tactic.Common

/-!
# The tokens of a text, and what they say about a block

`Block.seek` stops at the end of a block. Here the same text is read to its end: `tokensFrom` lists
all tokens that stand in it, one behind another, an open token before a close token before a single
character. Where a block ends, or why none does, is a statement about the prefixes of that list.

* `Token`, `tokensFrom`, `tokensOf`: the tokens of a text;
* `opened`, `closed`, `StaysOpen`, `IsBlock`, `depths`: how deep the prefixes of a list of tokens
  nest;
* `Verdict`: the four things that can be said of a list of tokens;
* `settle`: the scan as a function of the tokens alone (`seek_eq_settle`).

`settle_eq_iff` says that the scan finds the one verdict that holds, and `locateEnd_outcome` spells
it out for a document.
-/

namespace BlockEdit.Block

/-- A token in a text, from the offset `start` up to `stop`. -/
structure Token where
  side : TokenSide
  start : Nat
  stop : Nat
  deriving DecidableEq, Repr

/-- The tokens of a text whose first character lies at the offset `pos`. -/
def tokensFrom (d : Delimiters) (pos : Nat) (cs : List Char) : List Token :=
  match _ho : Text.after? d.opening cs with
  | some rest =>
    let next := pos + Text.byteSize d.opening
    ⟨.opening, pos, next⟩ :: tokensFrom d next rest
  | none =>
    match _hc : Text.after? d.closing cs with
    | some rest =>
      let next := pos + Text.byteSize d.closing
      ⟨.closing, pos, next⟩ :: tokensFrom d next rest
    | none =>
      match cs with
      | [] => []
      | c :: cs => tokensFrom d (pos + c.utf8Size) cs
termination_by cs.length
decreasing_by
  · exact Text.length_lt_of_after? d.opening_ne_nil (by assumption)
  · exact Text.length_lt_of_after? d.closing_ne_nil (by assumption)
  · simp

/-- The tokens of a document from the offset `start` on. -/
def tokensOf (document : String) (start : Nat) (tokens : TokenPair) : List Token :=
  match tokens.delimiters, Text.cutAt? start document.toList with
  | .ok d, some (_, rest) => tokensFrom d start rest
  | _, _ => []

/-- The number of open tokens. -/
def opened (ts : List Token) : Nat := ts.countP (·.side = .opening)

/-- The number of close tokens. -/
def closed (ts : List Token) : Nat := ts.countP (·.side = .closing)

/-- Behind each token there are still more open tokens than close tokens. -/
def StaysOpen (ts : List Token) : Prop := ∀ p, p ≠ [] → p <+: ts → closed p < opened p

/-- The tokens are those of one block that ends at the offset `stop`. -/
def IsBlock (stop : Nat) (ts : List Token) : Prop :=
  ∃ inner last, ts = inner ++ [last] ∧ last.side = .closing ∧ last.stop = stop ∧
    opened ts = closed ts ∧ StaysOpen inner

/-- How many blocks are open behind some prefix of the tokens. -/
def depths (ts : List Token) : Set Nat := {n | ∃ p, p <+: ts ∧ opened p = closed p + n}

/-- The situations in which the tokens of a text can be: a block ends, a close token comes first,
there is no token, or blocks are open to the end. -/
def situations (ts : List Token) : List Prop :=
  [∃ stop block, block <+: ts ∧ IsBlock stop block, ∃ t, ts.head? = some t ∧ t.side = .closing,
    ts = [], ts ≠ [] ∧ StaysOpen ts]

/-- What the tokens of a text of `length` bytes say about the block that begins there. -/
inductive Verdict (length : Nat) (ts : List Token) : Except Imbalance End → Prop
  | block {block : List Token} {stop maxDepth : Nat} (hts : block <+: ts)
      (hblock : IsBlock stop block) (hmax : IsGreatest (depths block) maxDepth) :
      Verdict length ts (.ok ⟨stop, maxDepth⟩)
  | closedFirst {t : Token} (hts : ts.head? = some t) (hside : t.side = .closing) :
      Verdict length ts (.error (.unexpectedClose t.start))
  | unopened (hts : ts = []) : Verdict length ts (.error (.neverOpened length))
  | unclosed {depth : Nat} (hts : ts ≠ []) (hopen : StaysOpen ts)
      (hdepth : opened ts = closed ts + depth) :
      Verdict length ts (.error (.unclosedAtEnd depth length))

/-- The end of the block that the tokens `ts` continue, when `depth` blocks are open in front of
them, at most `deepest` were open so far, and the text has `length` bytes. -/
def settle (length : Nat) : (depth deepest : Nat) → List Token → Except Imbalance End
  | 0, _, [] => .error (.neverOpened length)
  | depth + 1, _, [] => .error (.unclosedAtEnd (depth + 1) length)
  | depth, deepest, ⟨.opening, _, _⟩ :: ts =>
    settle length (depth + 1) (max deepest (depth + 1)) ts
  | 0, _, ⟨.closing, start, _⟩ :: _ => .error (.unexpectedClose start)
  | 1, deepest, ⟨.closing, _, stop⟩ :: _ => .ok ⟨stop, deepest⟩
  | depth + 2, deepest, ⟨.closing, _, _⟩ :: ts => settle length (depth + 1) deepest ts

section Tokens

variable {d : Delimiters} {pos : Nat} {cs rest : List Char}

theorem tokensFrom_opening (ho : Text.after? d.opening cs = some rest) :
    tokensFrom d pos cs =
      ⟨.opening, pos, pos + Text.byteSize d.opening⟩ ::
        tokensFrom d (pos + Text.byteSize d.opening) rest := by
  rw [tokensFrom]
  split
  · simp_all
  · simp_all

theorem tokensFrom_closing (ho : Text.after? d.opening cs = none)
    (hc : Text.after? d.closing cs = some rest) :
    tokensFrom d pos cs =
      ⟨.closing, pos, pos + Text.byteSize d.closing⟩ ::
        tokensFrom d (pos + Text.byteSize d.closing) rest := by
  rw [tokensFrom]
  split
  · simp_all
  · split <;> simp_all

theorem tokensFrom_cons {c : Char} (ho : Text.after? d.opening (c :: cs) = none)
    (hc : Text.after? d.closing (c :: cs) = none) :
    tokensFrom d pos (c :: cs) = tokensFrom d (pos + c.utf8Size) cs := by
  rw [tokensFrom]
  split
  · simp_all
  · split <;> simp_all

@[simp] theorem tokensFrom_nil : tokensFrom d pos [] = [] := by
  have ho := Text.after?_nil d.opening_ne_nil
  have hc := Text.after?_nil d.closing_ne_nil
  rw [tokensFrom]
  split
  · simp_all
  · split <;> simp_all

end Tokens

/-- The scan of a text depends on its tokens and its length only. -/
theorem seek_eq_settle (d : Delimiters) (pos depth deepest : Nat) (cs : List Char) :
    seek d pos depth deepest cs =
      settle (pos + Text.byteSize cs) depth deepest (tokensFrom d pos cs) := by
  fun_induction seek d pos depth deepest cs with
  | case1 pos depth deepest cs rest ho ih =>
    rw [tokensFrom_opening ho, settle, ih, Text.after?_eq_some ho, Text.byteSize_append,
      Nat.add_assoc]
  | case2 pos deepest cs ho rest hc =>
    rw [tokensFrom_closing ho hc, settle]
  | case3 pos deepest cs ho rest hc =>
    rw [tokensFrom_closing ho hc, settle]
  | case4 pos deepest cs ho rest hc depth ih =>
    rw [tokensFrom_closing ho hc, settle, ih, Text.after?_eq_some hc, Text.byteSize_append,
      Nat.add_assoc]
  | case5 pos depth deepest ho hc =>
    cases depth <;> simp [settle]
  | case6 pos depth deepest c cs ho hc ih =>
    rw [tokensFrom_cons ho hc, ih, Text.byteSize_cons, Nat.add_assoc]

/-! ### Prefixes of the tokens -/

section Prefixes

variable {ts inner rest : List Token} {depth deepest length a b : Nat}

@[simp] theorem opened_nil : opened [] = 0 := rfl

@[simp] theorem closed_nil : closed [] = 0 := rfl

@[simp] theorem opened_opening : opened (⟨.opening, a, b⟩ :: ts) = opened ts + 1 := by
  simp [opened]

@[simp] theorem opened_closing : opened (⟨.closing, a, b⟩ :: ts) = opened ts := by
  simp [opened]

@[simp] theorem closed_opening : closed (⟨.opening, a, b⟩ :: ts) = closed ts := by
  simp [closed]

@[simp] theorem closed_closing : closed (⟨.closing, a, b⟩ :: ts) = closed ts + 1 := by
  simp [closed]

@[simp] theorem opened_append : opened (ts ++ rest) = opened ts + opened rest := by
  simp [opened]

@[simp] theorem closed_append : closed (ts ++ rest) = closed ts + closed rest := by
  simp [closed]

/-- With `depth` blocks open in front of the tokens, some are still open behind each token. -/
def StaysOpenFrom (depth : Nat) (ts : List Token) : Prop :=
  ∀ p, p ≠ [] → p <+: ts → closed p < depth + opened p

/-- How many blocks are open behind some prefix of the tokens, with `depth` in front of them. -/
def depthsFrom (depth : Nat) (ts : List Token) : Set Nat :=
  {n | ∃ p, p <+: ts ∧ depth + opened p = closed p + n}

theorem staysOpenFrom_zero : StaysOpenFrom 0 ts ↔ StaysOpen ts := by
  simp [StaysOpenFrom, StaysOpen]

theorem depthsFrom_zero : depthsFrom 0 ts = depths ts := by
  simp [depthsFrom, depths]

theorem opened_cons (t : Token) : opened (t :: ts) = opened [t] + opened ts := by
  rw [← List.singleton_append, opened_append]

theorem closed_cons (t : Token) : closed (t :: ts) = closed [t] + closed ts := by
  rw [← List.singleton_append, closed_append]

theorem staysOpenFrom_nil : StaysOpenFrom depth [] := by
  intro p hp hpre
  exact absurd (List.prefix_nil.1 hpre) hp

theorem depthsFrom_nil : depthsFrom depth [] = {depth} := by
  ext n
  simp [depthsFrom, eq_comm]

theorem self_mem_depthsFrom : depth ∈ depthsFrom depth ts := ⟨[], List.nil_prefix, by simp⟩

/-- Tokens stay open when the first one leads to a positive depth `next`, and the others stay open
from there. -/
theorem staysOpenFrom_cons {t : Token} {next : Nat}
    (hnext : depth + opened [t] = next + closed [t]) :
    StaysOpenFrom depth (t :: ts) ↔ 0 < next ∧ StaysOpenFrom next ts := by
  constructor
  · intro h
    have ht := h [t] (by simp) (by simp)
    refine ⟨by omega, fun p _ hpre => ?_⟩
    have hp := h (t :: p) (by simp) ((List.prefix_cons_inj t).2 hpre)
    rw [opened_cons, closed_cons] at hp
    omega
  · rintro ⟨hpos, h⟩ p hp hpre
    obtain rfl | ⟨q, rfl, hq⟩ := List.prefix_cons_iff.1 hpre
    · exact absurd rfl hp
    · by_cases hnil : q = []
      · subst hnil; omega
      · have := h q hnil hq
        rw [opened_cons, closed_cons]
        omega

/-- A depth behind a prefix is the one in front of all tokens, or it lies behind the first one. -/
theorem depthsFrom_cons {t : Token} {next : Nat}
    (hnext : depth + opened [t] = next + closed [t]) :
    depthsFrom depth (t :: ts) = insert depth (depthsFrom next ts) := by
  ext n
  constructor
  · rintro ⟨p, hp, h⟩
    obtain rfl | ⟨q, rfl, hq⟩ := List.prefix_cons_iff.1 hp
    · left; simpa using h.symm
    · rw [opened_cons, closed_cons] at h
      exact Or.inr ⟨q, hq, by omega⟩
  · rintro (rfl | ⟨q, hq, h⟩)
    · exact self_mem_depthsFrom
    · refine ⟨t :: q, (List.prefix_cons_inj t).2 hq, ?_⟩
      rw [opened_cons, closed_cons]
      omega

end Prefixes

/-! ### The verdict of the scan -/

section Verdicts

variable {length : Nat} {ts inner block : List Token} {depth deepest : Nat}

/-- The deepest depth that is known behind one token, with all that follow, is the deepest depth
that is known in front of it. -/
theorem isGreatest_depthsFrom_cons {t : Token} {next m : Nat}
    (hnext : depth + opened [t] = next + closed [t]) (hle : depth ≤ deepest)
    (hm : IsGreatest (insert (max deepest next) (depthsFrom next ts)) m) :
    IsGreatest (insert deepest (depthsFrom depth (t :: ts))) m := by
  obtain ⟨hmem, hupper⟩ := hm
  have hmax : max deepest next ≤ m := hupper (Set.mem_insert _ _)
  rw [depthsFrom_cons hnext]
  constructor
  · rcases hmem with rfl | hmem
    · by_cases h : deepest ≤ next
      · rw [Nat.max_eq_right h]
        exact Or.inr (Or.inr self_mem_depthsFrom)
      · exact Or.inl (by omega)
    · exact Or.inr (Or.inr hmem)
  · rintro n (rfl | rfl | hn)
    · omega
    · omega
    · exact hupper (Or.inr hn)

/-- Tokens behind which blocks stay open are read without an end, and the deepest depth that was
met so far is recorded. -/
theorem settle_append (length : Nat) (rest : List Token) (hopen : StaysOpenFrom depth inner)
    (hle : depth ≤ deepest) :
    ∃ m, settle length depth deepest (inner ++ rest) =
        settle length (depth + opened inner - closed inner) m rest ∧
      IsGreatest (insert deepest (depthsFrom depth inner)) m := by
  induction inner generalizing depth deepest with
  | nil =>
    refine ⟨deepest, by simp, Set.mem_insert _ _, ?_⟩
    rw [depthsFrom_nil]
    rintro n (rfl | rfl)
    · exact le_rfl
    · exact hle
  | cons t inner ih =>
    obtain ⟨side, a, b⟩ := t
    cases side with
    | opening =>
      have hnext : depth + opened [⟨.opening, a, b⟩] = depth + 1 + closed [⟨.opening, a, b⟩] := by
        simp
      have hinner := ((staysOpenFrom_cons hnext).1 hopen).2
      obtain ⟨m, hm, hgreatest⟩ := ih hinner (le_max_right deepest (depth + 1))
      refine ⟨m, ?_, isGreatest_depthsFrom_cons hnext hle hgreatest⟩
      rw [List.cons_append, settle, hm, opened_opening, closed_opening]
      congr 1; omega
    | closing =>
      obtain ⟨next, rfl⟩ : ∃ next, depth = next + 2 := by
        have h := hopen [⟨.closing, a, b⟩] (by simp) (by simp)
        simp only [closed_closing, closed_nil, opened_closing, opened_nil] at h
        exact ⟨depth - 2, by omega⟩
      have hnext : next + 2 + opened [⟨.closing, a, b⟩] = next + 1 + closed [⟨.closing, a, b⟩] := by
        simp
      have hinner := ((staysOpenFrom_cons hnext).1 hopen).2
      obtain ⟨m, hm, hgreatest⟩ := ih hinner (by omega : next + 1 ≤ deepest)
      rw [← max_eq_left (by omega : next + 1 ≤ deepest)] at hgreatest
      refine ⟨m, ?_, isGreatest_depthsFrom_cons hnext hle hgreatest⟩
      rw [List.cons_append, settle, hm, opened_closing, closed_closing]
      congr 1; omega

/-- The same from the first token on, where no block is open yet. -/
theorem settle_append_zero (length : Nat) (rest : List Token) (hopen : StaysOpen inner) :
    ∃ m, settle length 0 0 (inner ++ rest) = settle length (opened inner - closed inner) m rest ∧
      IsGreatest (depths inner) m := by
  obtain ⟨m, hm, hgreatest⟩ := settle_append length rest
    (staysOpenFrom_zero.2 hopen) (le_refl 0)
  rw [Set.insert_eq_of_mem self_mem_depthsFrom, depthsFrom_zero] at hgreatest
  exact ⟨m, by rw [hm, Nat.zero_add], hgreatest⟩

/-- A last token that closes the last open block adds no depth. -/
theorem depths_concat {last : Token} (h : opened (inner ++ [last]) = closed (inner ++ [last])) :
    depths (inner ++ [last]) = depths inner := by
  ext n
  constructor
  · rintro ⟨p, hp, hn⟩
    obtain rfl | hp := List.prefix_concat_iff.1 hp
    · exact ⟨[], List.nil_prefix, by simp; omega⟩
    · exact ⟨p, hp, hn⟩
  · rintro ⟨p, hp, hn⟩
    exact ⟨p, hp.trans (List.prefix_append _ _), hn⟩

theorem exists_isGreatest_depths {stop : Nat} (h : IsBlock stop block) :
    ∃ m, IsGreatest (depths block) m := by
  obtain ⟨inner, last, rfl, -, -, hcount, hopen⟩ := h
  obtain ⟨m, -, hgreatest⟩ := settle_append_zero 0 [] hopen
  exact ⟨m, (depths_concat hcount).symm ▸ hgreatest⟩

/-- The scan finds a verdict that holds. -/
theorem settle_eq_of_verdict {result : Except Imbalance End} (h : Verdict length ts result) :
    settle length 0 0 ts = result := by
  cases h with
  | @block block stop maxDepth hts hblock hmax =>
    obtain ⟨rest, rfl⟩ := hts
    obtain ⟨inner, ⟨side, a, b⟩, rfl, rfl, rfl, hcount, hopen⟩ := hblock
    obtain ⟨m, hm, hgreatest⟩ := settle_append_zero length ([⟨.closing, a, b⟩] ++ rest) hopen
    rw [depths_concat hcount] at hmax
    have hone : opened inner - closed inner = 1 := by
      simp only [opened_append, closed_append, opened_closing, closed_closing, opened_nil,
        closed_nil] at hcount
      omega
    rw [List.append_assoc, hm, hone, List.singleton_append, settle, hgreatest.unique hmax]
  | @closedFirst t hts hside =>
    obtain ⟨side, a, b⟩ := t
    obtain ⟨rest, rfl⟩ := List.head?_eq_some_iff.1 hts
    obtain rfl : side = .closing := hside
    rw [settle]
  | unopened hts => rw [hts, settle]
  | @unclosed depth hts hopen hdepth =>
    obtain ⟨m, hm, -⟩ := settle_append_zero length [] hopen
    have hpos := hopen ts hts (List.prefix_refl ts)
    obtain ⟨k, rfl⟩ : ∃ k, depth = k + 1 := ⟨depth - 1, by omega⟩
    rw [List.append_nil] at hm
    rw [hm, show opened ts - closed ts = k + 1 by omega, settle]

theorem staysOpen_concat {last : Token} (hopen : StaysOpen inner)
    (h : closed (inner ++ [last]) < opened (inner ++ [last])) : StaysOpen (inner ++ [last]) := by
  intro p hp hpre
  obtain rfl | hpre := List.prefix_concat_iff.1 hpre
  · exact h
  · exact hopen p hp hpre

/-- Tokens stay open, or there is a first one behind which they do not. -/
theorem staysOpen_or_exists (ts : List Token) :
    StaysOpen ts ∨ ∃ inner last, inner ++ [last] <+: ts ∧ StaysOpen inner ∧
      opened (inner ++ [last]) ≤ closed (inner ++ [last]) := by
  induction ts using List.reverseRecOn with
  | nil => exact Or.inl (staysOpenFrom_zero.1 staysOpenFrom_nil)
  | append_singleton ts t ih =>
    rcases ih with hopen | ⟨inner, last, hpre, hopen, hcount⟩
    · by_cases h : closed (ts ++ [t]) < opened (ts ++ [t])
      · exact Or.inl (staysOpen_concat hopen h)
      · exact Or.inr ⟨ts, t, List.prefix_refl _, hopen, not_lt.1 h⟩
    · exact Or.inr ⟨inner, last, hpre.trans (List.prefix_append _ _), hopen, hcount⟩

theorem exists_verdict_block (length : Nat)
    (h : ∃ stop block, block <+: ts ∧ IsBlock stop block) :
    ∃ e, Verdict length ts (.ok e) := by
  obtain ⟨stop, block, hts, hblock⟩ := h
  obtain ⟨m, hm⟩ := exists_isGreatest_depths hblock
  exact ⟨_, .block hts hblock hm⟩

theorem exists_verdict_unclosed (length : Nat) (h : ts ≠ [] ∧ StaysOpen ts) :
    ∃ depth, Verdict length ts (.error (.unclosedAtEnd depth length)) := by
  have := h.2 ts h.1 (List.prefix_refl ts)
  exact ⟨_, .unclosed h.1 h.2 (by omega : opened ts = closed ts + (opened ts - closed ts))⟩

/-- Some verdict holds of all tokens. -/
theorem exists_verdict (length : Nat) (ts : List Token) : ∃ result, Verdict length ts result := by
  rcases staysOpen_or_exists ts with hopen | ⟨inner, ⟨side, a, b⟩, hpre, hopen, hcount⟩
  · by_cases hts : ts = []
    · exact ⟨_, .unopened hts⟩
    · obtain ⟨depth, h⟩ := exists_verdict_unclosed length ⟨hts, hopen⟩
      exact ⟨_, h⟩
  · by_cases hnil : inner = []
    · subst hnil
      obtain ⟨rest, rfl⟩ := hpre
      cases side with
      | opening => simp at hcount
      | closing => exact ⟨_, .closedFirst rfl rfl⟩
    · have hlt := hopen inner hnil (List.prefix_refl inner)
      cases side with
      | opening => simp at hcount; omega
      | closing =>
        have heq : opened (inner ++ [⟨.closing, a, b⟩]) = closed (inner ++ [⟨.closing, a, b⟩]) := by
          simp at hcount ⊢; omega
        have hblock : IsBlock b (inner ++ [⟨.closing, a, b⟩]) :=
          ⟨inner, _, rfl, rfl, rfl, heq, hopen⟩
        obtain ⟨e, h⟩ := exists_verdict_block length ⟨_, _, hpre, hblock⟩
        exact ⟨_, h⟩

/-- The scan finds exactly the verdict that holds. -/
theorem settle_eq_iff {result : Except Imbalance End} :
    settle length 0 0 ts = result ↔ Verdict length ts result := by
  refine ⟨?_, settle_eq_of_verdict⟩
  rintro rfl
  obtain ⟨result, h⟩ := exists_verdict length ts
  rwa [settle_eq_of_verdict h]

/-! ### The verdicts one by one -/

theorem verdict_ok_iff {stop maxDepth : Nat} :
    Verdict length ts (.ok ⟨stop, maxDepth⟩) ↔
      ∃ block, block <+: ts ∧ IsBlock stop block ∧ IsGreatest (depths block) maxDepth := by
  constructor
  · intro h
    cases h with
    | block hts hblock hmax => exact ⟨_, hts, hblock, hmax⟩
  · rintro ⟨block, hts, hblock, hmax⟩
    exact .block hts hblock hmax

theorem exists_verdict_ok_iff {stop : Nat} :
    (∃ maxDepth, Verdict length ts (.ok ⟨stop, maxDepth⟩)) ↔
      ∃ block, block <+: ts ∧ IsBlock stop block := by
  simp only [verdict_ok_iff]
  constructor
  · rintro ⟨maxDepth, block, hts, hblock, -⟩
    exact ⟨block, hts, hblock⟩
  · rintro ⟨block, hts, hblock⟩
    obtain ⟨m, hm⟩ := exists_isGreatest_depths hblock
    exact ⟨m, block, hts, hblock, hm⟩

theorem verdict_unexpectedClose_iff {offset : Nat} :
    Verdict length ts (.error (.unexpectedClose offset)) ↔
      ∃ t, ts.head? = some t ∧ t.side = .closing ∧ t.start = offset := by
  constructor
  · intro h
    cases h with
    | closedFirst hts hside => exact ⟨_, hts, hside, rfl⟩
  · rintro ⟨t, hts, hside, rfl⟩
    exact .closedFirst hts hside

theorem verdict_neverOpened_iff {size : Nat} :
    Verdict length ts (.error (.neverOpened size)) ↔ size = length ∧ ts = [] := by
  constructor
  · intro h
    cases h with
    | unopened hts => exact ⟨rfl, hts⟩
  · rintro ⟨rfl, hts⟩
    exact .unopened hts

theorem verdict_unclosedAtEnd_iff {depth size : Nat} :
    Verdict length ts (.error (.unclosedAtEnd depth size)) ↔
      size = length ∧ ts ≠ [] ∧ StaysOpen ts ∧ opened ts = closed ts + depth := by
  constructor
  · intro h
    cases h with
    | unclosed hts hopen hdepth => exact ⟨rfl, hts, hopen, hdepth⟩
  · rintro ⟨rfl, hts, hopen, hdepth⟩
    exact .unclosed hts hopen hdepth

/-- No two situations meet, and one of them is there. -/
theorem situations_exclusive_exhaustive (ts : List Token) :
    (situations ts).Pairwise (fun p q => ¬(p ∧ q)) ∧ ∃ p ∈ situations ts, p := by
  have hunique : ∀ {r r'}, Verdict 0 ts r → Verdict 0 ts r' → r = r' := fun h h' =>
    (settle_eq_of_verdict h).symm.trans (settle_eq_of_verdict h')
  constructor
  · simp only [situations, List.pairwise_cons, List.mem_cons, List.not_mem_nil, or_false,
      forall_eq_or_imp, forall_eq, List.Pairwise.nil, and_true, false_imp_iff, implies_true]
    refine ⟨⟨?_, ?_, ?_⟩, ⟨?_, ?_⟩, ?_⟩
    · rintro ⟨hb, t, hts, hside⟩
      obtain ⟨e, he⟩ := exists_verdict_block 0 hb
      cases hunique he (.closedFirst hts hside)
    · rintro ⟨hb, hts⟩
      obtain ⟨e, he⟩ := exists_verdict_block 0 hb
      cases hunique he (.unopened hts)
    · rintro ⟨hb, ho⟩
      obtain ⟨e, he⟩ := exists_verdict_block 0 hb
      obtain ⟨k, hk⟩ := exists_verdict_unclosed 0 ho
      cases hunique he hk
    · rintro ⟨⟨t, hts, hside⟩, hnil⟩
      cases hunique (.closedFirst hts hside) (.unopened hnil)
    · rintro ⟨⟨t, hts, hside⟩, ho⟩
      obtain ⟨k, hk⟩ := exists_verdict_unclosed 0 ho
      cases hunique (.closedFirst hts hside) hk
    · rintro ⟨hnil, hne, -⟩
      exact hne hnil
  · obtain ⟨result, h⟩ := exists_verdict 0 ts
    simp only [situations, List.mem_cons, List.not_mem_nil, or_false, exists_eq_or_imp,
      exists_eq_left]
    cases h with
    | block hts hblock hmax => exact Or.inl ⟨_, _, hts, hblock⟩
    | closedFirst hts hside => exact Or.inr (Or.inl ⟨_, hts, hside⟩)
    | unopened hts => exact Or.inr (Or.inr (Or.inl hts))
    | unclosed hts hopen hdepth => exact Or.inr (Or.inr (Or.inr ⟨hts, hopen⟩))

end Verdicts

/-! ### Blocks of a document -/

section Documents

variable {document : String} {start : Nat} {tokens : TokenPair}

theorem delimiters_eq_ok (ho : tokens.opening ≠ "") (hc : tokens.closing ≠ "") :
    ∃ d, tokens.delimiters = .ok d := by
  simp [TokenPair.delimiters, ho, hc]

theorem mapError_eq_ok_iff {ε ε' α : Type} {r : Except ε α} {f : ε → ε'} {a : α} :
    r.mapError f = .ok a ↔ r = .ok a := by
  cases r <;> simp [Except.mapError]

theorem mapError_eq_error_iff {ε ε' α : Type} {r : Except ε α} {f : ε → ε'} {e : ε'} :
    r.mapError f = .error e ↔ ∃ e₀, r = .error e₀ ∧ f e₀ = e := by
  cases r <;> simp [Except.mapError]

/-- The end of a block in a document depends on the tokens from its start on. -/
theorem locateEnd_eq_settle (hstart : Text.IsBoundary start document.toList)
    (ho : tokens.opening ≠ "") (hc : tokens.closing ≠ "") :
    locateEnd document start tokens =
      (settle document.utf8ByteSize 0 0 (tokensOf document start tokens)).mapError
        (.unbalanced start) := by
  obtain ⟨d, hd⟩ := delimiters_eq_ok ho hc
  obtain ⟨front, rest, hdoc, hsize⟩ := hstart
  have hcut : Text.cutAt? start document.toList = some (front, rest) :=
    Text.cutAt?_eq_some_iff.2 ⟨hdoc, hsize⟩
  have hlength : start + Text.byteSize rest = document.utf8ByteSize := by
    rw [← Text.byteSize_toList, hdoc, Text.byteSize_append, hsize]
  simp only [locateEnd, tokensOf, hd, hcut]
  rw [seek_eq_settle, hlength]

theorem locateEnd_eq_ok_iff (hstart : Text.IsBoundary start document.toList)
    (ho : tokens.opening ≠ "") (hc : tokens.closing ≠ "") {e : End} :
    locateEnd document start tokens = .ok e ↔
      Verdict document.utf8ByteSize (tokensOf document start tokens) (.ok e) := by
  rw [locateEnd_eq_settle hstart ho hc, mapError_eq_ok_iff, settle_eq_iff]

theorem locateEnd_eq_unbalanced_iff (hstart : Text.IsBoundary start document.toList)
    (ho : tokens.opening ≠ "") (hc : tokens.closing ≠ "") {s : Nat} {i : Imbalance} :
    locateEnd document start tokens = .error (.unbalanced s i) ↔
      s = start ∧ Verdict document.utf8ByteSize (tokensOf document start tokens) (.error i) := by
  rw [locateEnd_eq_settle hstart ho hc, mapError_eq_error_iff, ← settle_eq_iff]
  constructor
  · rintro ⟨i', h, heq⟩
    cases heq
    exact ⟨rfl, h⟩
  · rintro ⟨rfl, h⟩
    exact ⟨i, h, rfl⟩

/-- The tokens from the start on decide about the block that begins there. It ends with the close
token behind which, for the first time, as many blocks are closed as opened, and its greatest depth
is the greatest depth of a prefix up to there. There is none if a close token comes first, if there
is no token at all, or if blocks are open behind every token; just one of these is the case. -/
theorem locateEnd_outcome (hstart : Text.IsBoundary start document.toList)
    (ho : tokens.opening ≠ "") (hc : tokens.closing ≠ "") :
    let ts := tokensOf document start tokens
    let result := locateEnd document start tokens
    (∀ stop, (∃ maxDepth, result = .ok ⟨stop, maxDepth⟩) ↔
      ∃ block, block <+: ts ∧ IsBlock stop block) ∧
    (∀ stop maxDepth, result = .ok ⟨stop, maxDepth⟩ ↔
      ∃ block, block <+: ts ∧ IsBlock stop block ∧ IsGreatest (depths block) maxDepth) ∧
    (∀ s offset, result = .error (.unbalanced s (.unexpectedClose offset)) ↔
      s = start ∧ ∃ t, ts.head? = some t ∧ t.side = .closing ∧ t.start = offset) ∧
    (∀ s length, result = .error (.unbalanced s (.neverOpened length)) ↔
      s = start ∧ length = document.utf8ByteSize ∧ ts = []) ∧
    (∀ s depth length, result = .error (.unbalanced s (.unclosedAtEnd depth length)) ↔
      s = start ∧ length = document.utf8ByteSize ∧
        ts ≠ [] ∧ StaysOpen ts ∧ opened ts = closed ts + depth) ∧
    (situations ts).Pairwise (fun p q => ¬(p ∧ q)) ∧ ∃ p ∈ situations ts, p := by
  intro ts result
  refine ⟨fun stop => ?_, fun stop maxDepth => ?_, fun s offset => ?_, fun s length => ?_,
    fun s depth length => ?_, situations_exclusive_exhaustive ts⟩
  · simp only [result, locateEnd_eq_ok_iff hstart ho hc]
    exact exists_verdict_ok_iff
  · rw [show result = _ from rfl, locateEnd_eq_ok_iff hstart ho hc, verdict_ok_iff]
  · rw [show result = _ from rfl, locateEnd_eq_unbalanced_iff hstart ho hc,
      verdict_unexpectedClose_iff]
  · rw [show result = _ from rfl, locateEnd_eq_unbalanced_iff hstart ho hc,
      verdict_neverOpened_iff]
  · rw [show result = _ from rfl, locateEnd_eq_unbalanced_iff hstart ho hc,
      verdict_unclosedAtEnd_iff]

/-- A block with a block in it, behind one character and in front of another close token. -/
theorem locateEnd_outcome_nested :
    let document := "x<b>ü<b></b>c</b></b>"
    Text.IsBoundary 1 document.toList ∧ (TokenPair.element "b").opening ≠ "" ∧
      (TokenPair.element "b").closing ≠ "" ∧
      ∃ block, block <+: tokensOf document 1 (.element "b") ∧ IsBlock 18 block ∧
        IsGreatest (depths block) 2 := by
  intro document
  have hstart : Text.IsBoundary 1 document.toList := Text.isSome_cutAt?_iff.1 (by decide)
  have ho : (TokenPair.element "b").opening ≠ "" := by decide
  have hc : (TokenPair.element "b").closing ≠ "" := by decide
  have hend : locateEnd document 1 (.element "b") = .ok ⟨18, 2⟩ := by decide +kernel
  exact ⟨hstart, ho, hc, ((locateEnd_outcome hstart ho hc).2.1 18 2).1 hend⟩

end Documents

end BlockEdit.Block
