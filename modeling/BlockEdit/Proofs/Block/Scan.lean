import BlockEdit.Proofs.Block.Locality
import BlockEdit.Proofs.Text.Encoding

/-!
# The scan as a loop over bytes

`Block.seek` reads characters. Here the scan for the end of a block is a loop over the bytes of the
document: each turn compares the tokens with the bytes from its offset on, and takes the text from
there on only where it has to step over one character. For that the offset must not lie inside a
character; a turn that finds it there comes to `Scan.torn`.

No turn does. A token that is matched at a cut of the document ends at a cut, and a step over a
character does so too (`turn_of_split`). So each turn leads from cut to cut and goes on as the
search of the characters does (`Follows.next`), the offset grows with each turn
(`add_le_pos_run`), and the loop ends with the result of `locateEnd` (`run_ended`).
-/

namespace BlockEdit.Block

open Text (byteSize bytes)

/-- The offset that a scan has come to, the number of blocks that are open there, and the largest
such number so far. -/
structure Place where
  pos : Nat
  depth : Nat
  deepest : Nat
  deriving DecidableEq, Repr

/-- What a scan has come to. -/
inductive Scan where
  /-- It goes on. -/
  | going (place : Place)
  /-- It is over. -/
  | ended (result : Except Imbalance End)
  /-- It would have to take the text from the inside of a character on. -/
  | torn
  deriving DecidableEq

/-- One turn of the loop. -/
def turn (document : String) (tokens : TokenPair) (p : Place) : Scan :=
  let length := (bytes document).length
  let rest := (bytes document).drop p.pos
  if length ≤ p.pos then
    .ended (.error (if p.depth = 0 then .neverOpened length else .unclosedAtEnd p.depth length))
  else if bytes tokens.opening <+: rest then
    .going ⟨p.pos + (bytes tokens.opening).length, p.depth + 1, max p.deepest (p.depth + 1)⟩
  else if bytes tokens.closing <+: rest then
    let next := p.pos + (bytes tokens.closing).length
    match p.depth with
    | 0 => .ended (.error (.unexpectedClose p.pos))
    | 1 => .ended (.ok ⟨next, p.deepest⟩)
    | depth + 2 => .going ⟨next, depth + 1, p.deepest⟩
  else
    match Text.cutAt? p.pos document.toList with
    | none => .torn
    | some (_, []) => .going { p with pos := p.pos + 1 }
    | some (_, c :: _) => .going { p with pos := p.pos + c.utf8Size }

/-- A turn of a scan that is not over. -/
def Scan.next (document : String) (tokens : TokenPair) : Scan → Scan
  | .going p => turn document tokens p
  | s => s

/-- The scan from the offset `start` on, after `n` turns. -/
def run (document : String) (tokens : TokenPair) (start : Nat) : Nat → Scan
  | 0 => .going ⟨start, 0, 0⟩
  | n + 1 => (run document tokens start n).next document tokens

variable {document : String} {tokens : TokenPair} {d : Delimiters}
  {start n depth deepest : Nat} {p : Place} {result : Except Imbalance End} {s : Scan}
  {front rest tail : List Char}

/-! ### One turn at a cut of the document -/

section Turn

theorem length_bytes_of_split (h : document.toList = front ++ rest) :
    (bytes document).length = byteSize front + byteSize rest := by
  rw [Text.bytes_eq, Text.length_encode, h, Text.byteSize_append]

theorem drop_bytes_of_split (h : document.toList = front ++ rest) :
    (bytes document).drop (byteSize front) = Text.encode rest := by
  rw [Text.bytes_eq, h, Text.drop_encode]

theorem bytes_of_delimiters (hd : tokens.delimiters = .ok d) :
    bytes tokens.opening = Text.encode d.opening ∧
      bytes tokens.closing = Text.encode d.closing := by
  obtain ⟨ho, hc⟩ := delimiters_of_eq_ok hd
  rw [ho, hc, Text.bytes_eq, Text.bytes_eq]
  exact ⟨rfl, rfl⟩

theorem not_length_le (h : document.toList = front ++ rest) (hrest : rest ≠ []) :
    ¬(bytes document).length ≤ byteSize front := by
  have hpos := Text.byteSize_pos hrest
  rw [length_bytes_of_split h]
  omega

/-- The bytes at a cut of the document are those of a token where the characters are. -/
theorem prefix_drop_iff (h : document.toList = front ++ rest) (token : List Char) :
    Text.encode token <+: (bytes document).drop (byteSize front) ↔
      Text.after? token rest ≠ none := by
  rw [drop_bytes_of_split h, Ne, Text.after?_eq_none_iff, not_not]

theorem turn_nil (h : document.toList = front) :
    turn document tokens ⟨byteSize front, depth, deepest⟩ =
      .ended (.error (if depth = 0 then .neverOpened (byteSize front)
        else .unclosedAtEnd depth (byteSize front))) := by
  have hlength := length_bytes_of_split (h.trans (List.append_nil front).symm)
  rw [Text.byteSize_nil, Nat.add_zero] at hlength
  simp only [turn, hlength, Nat.le_refl, if_true]

theorem turn_opening (hd : tokens.delimiters = .ok d) (h : document.toList = front ++ rest)
    (ho : Text.after? d.opening rest = some tail) :
    turn document tokens ⟨byteSize front, depth, deepest⟩ =
      .going ⟨byteSize front + byteSize d.opening, depth + 1, max deepest (depth + 1)⟩ := by
  have hrest : rest ≠ [] := by
    rintro rfl
    rw [Text.after?_nil d.opening_ne_nil] at ho
    cases ho
  have hmatch := (prefix_drop_iff h d.opening).2 (by rw [ho]; exact Option.some_ne_none tail)
  simp only [turn, (bytes_of_delimiters hd).1, if_neg (not_length_le h hrest), if_pos hmatch,
    Text.length_encode]

theorem turn_closing (hd : tokens.delimiters = .ok d) (h : document.toList = front ++ rest)
    (ho : Text.after? d.opening rest = none) (hc : Text.after? d.closing rest = some tail)
    (depth deepest : Nat) :
    turn document tokens ⟨byteSize front, depth, deepest⟩ =
      match depth with
      | 0 => .ended (.error (.unexpectedClose (byteSize front)))
      | 1 => .ended (.ok ⟨byteSize front + byteSize d.closing, deepest⟩)
      | depth + 2 => .going ⟨byteSize front + byteSize d.closing, depth + 1, deepest⟩ := by
  have hrest : rest ≠ [] := by
    rintro rfl
    rw [Text.after?_nil d.closing_ne_nil] at hc
    cases hc
  have hno := mt (prefix_drop_iff h d.opening).1 (not_not.2 ho)
  have hmatch := (prefix_drop_iff h d.closing).2 (by rw [hc]; exact Option.some_ne_none tail)
  simp only [turn, (bytes_of_delimiters hd).1, (bytes_of_delimiters hd).2,
    if_neg (not_length_le h hrest), if_neg hno, if_pos hmatch, Text.length_encode]

theorem turn_cons {c : Char} (hd : tokens.delimiters = .ok d)
    (h : document.toList = front ++ c :: tail) (ho : Text.after? d.opening (c :: tail) = none)
    (hc : Text.after? d.closing (c :: tail) = none) :
    turn document tokens ⟨byteSize front, depth, deepest⟩ =
      .going ⟨byteSize front + c.utf8Size, depth, deepest⟩ := by
  have hno := mt (prefix_drop_iff h d.opening).1 (not_not.2 ho)
  have hno' := mt (prefix_drop_iff h d.closing).1 (not_not.2 hc)
  have hcut : Text.cutAt? (byteSize front) document.toList = some (front, c :: tail) :=
    Text.cutAt?_eq_some_iff.2 ⟨h, rfl⟩
  simp only [turn, (bytes_of_delimiters hd).1, (bytes_of_delimiters hd).2,
    if_neg (not_length_le h (List.cons_ne_nil c tail)), if_neg hno, if_neg hno', hcut]

/-- What a turn at a cut of the document does: it ends as the search of the characters behind the
cut does, or it leads to a later cut from which that search goes on to the same result. -/
theorem turn_of_split (hd : tokens.delimiters = .ok d) (h : document.toList = front ++ rest)
    (depth deepest : Nat) :
    turn document tokens ⟨byteSize front, depth, deepest⟩ =
        .ended (seek d (byteSize front) depth deepest rest) ∨
      ∃ step tail depth' deepest', rest = step ++ tail ∧ step ≠ [] ∧
        turn document tokens ⟨byteSize front, depth, deepest⟩ =
          .going ⟨byteSize (front ++ step), depth', deepest'⟩ ∧
        seek d (byteSize front) depth deepest rest =
          seek d (byteSize (front ++ step)) depth' deepest' tail := by
  cases ho : Text.after? d.opening rest with
  | some tail =>
    refine .inr ⟨d.opening, tail, depth + 1, max deepest (depth + 1),
      Text.after?_eq_some ho, d.opening_ne_nil, ?_, ?_⟩
    · rw [turn_opening hd h ho, Text.byteSize_append]
    · rw [seek_opening ho, Text.byteSize_append]
  | none =>
    cases hc : Text.after? d.closing rest with
    | some tail =>
      have hturn := turn_closing hd h ho hc depth deepest
      match depth with
      | 0 => exact .inl (by rw [hturn, seek_unexpected ho hc])
      | 1 => exact .inl (by rw [hturn, seek_last_closing ho hc])
      | depth + 2 =>
        refine .inr ⟨d.closing, tail, depth + 1, deepest, Text.after?_eq_some hc,
          d.closing_ne_nil, ?_, ?_⟩
        · rw [hturn, Text.byteSize_append]
        · rw [seek_closing ho hc, Text.byteSize_append]
    | none =>
      cases rest with
      | nil => exact .inl (by rw [turn_nil (h.trans (List.append_nil front)), seek_nil])
      | cons c tail =>
        have hsize : byteSize (front ++ [c]) = byteSize front + c.utf8Size :=
          Text.byteSize_append front [c]
        refine .inr ⟨[c], tail, depth, deepest, rfl, List.cons_ne_nil c [], ?_, ?_⟩
        · rw [turn_cons hd h ho hc, hsize]
        · rw [seek_cons ho hc, hsize]

end Turn

/-! ### The whole scan -/

/-- A scan from `start` has come to a cut of the document from which the search of the characters
goes on to the result, or it has that result. -/
inductive Follows (d : Delimiters) (document : String) (start : Nat)
    (result : Except Imbalance End) : Scan → Prop
  | going {front rest : List Char} {depth deepest : Nat}
      (hdocument : document.toList = front ++ rest) (hstart : start ≤ byteSize front)
      (hresult : seek d (byteSize front) depth deepest rest = result) :
      Follows d document start result (.going ⟨byteSize front, depth, deepest⟩)
  | ended : Follows d document start result (.ended result)

/-- A turn goes on as the search does, at a later offset. -/
theorem Follows.next (hd : tokens.delimiters = .ok d) (h : Follows d document start result s) :
    Follows d document start result (s.next document tokens) ∧
      ∀ p p', s = .going p → s.next document tokens = .going p' → p.pos < p'.pos := by
  cases h with
  | ended => exact ⟨.ended, nofun⟩
  | @going front rest depth deepest hdocument hstart hresult =>
    rcases turn_of_split hd hdocument depth deepest with
      hturn | ⟨step, tail, depth', deepest', rfl, hstep, hturn, hseek⟩
    · rw [Scan.next, hturn, hresult]
      exact ⟨.ended, nofun⟩
    · have hpos := Text.byteSize_pos hstep
      have hsize := Text.byteSize_append front step
      rw [Scan.next, hturn]
      refine ⟨.going (by rw [hdocument, List.append_assoc]) (by omega)
        (hseek.symm.trans hresult), ?_⟩
      rintro p p' hp hp'
      cases hp
      cases hp'
      show byteSize front < byteSize (front ++ step)
      omega

theorem follows_run (hd : tokens.delimiters = .ok d) (h : document.toList = front ++ rest)
    (n : Nat) : Follows d document (byteSize front) (seek d (byteSize front) 0 0 rest)
      (run document tokens (byteSize front) n) := by
  induction n with
  | zero => exact .going h (Nat.le_refl _) rfl
  | succ n ih => exact (ih.next hd).1

/-- A scan that goes on has gone on before. -/
theorem exists_going_of_next (h : s.next document tokens = .going p) : ∃ p', s = .going p' := by
  cases s with
  | going p' => exact ⟨p', rfl⟩
  | ended => cases h
  | torn => cases h

/-- Each turn takes the scan at least one byte further. -/
theorem add_le_pos_run (hd : tokens.delimiters = .ok d) (h : document.toList = front ++ rest)
    (hrun : run document tokens (byteSize front) n = .going p) : byteSize front + n ≤ p.pos := by
  induction n generalizing p with
  | zero => cases hrun; exact Nat.le_refl _
  | succ n ih =>
    obtain ⟨p', hp'⟩ := exists_going_of_next hrun
    have hlt := ((follows_run hd h n).next hd).2 p' p hp' hrun
    have hle := ih hp'
    omega

/-- What a scan that goes on has come to. -/
theorem Follows.of_going (h : Follows d document start result (.going p)) :
    Text.IsBoundary p.pos document.toList ∧ start ≤ p.pos ∧ p.pos ≤ document.utf8ByteSize := by
  cases h with
  | @going front rest depth deepest hdocument hstart hresult =>
    have hboundary : Text.IsBoundary (byteSize front) document.toList :=
      ⟨front, rest, hdocument, rfl⟩
    exact ⟨hboundary, hstart, Text.byteSize_toList document ▸ hboundary.le⟩

/-- There are no more turns than bytes behind the start, and one. -/
theorem run_ended (hd : tokens.delimiters = .ok d) (h : document.toList = front ++ rest) :
    run document tokens (byteSize front) (byteSize rest + 1) =
      .ended (seek d (byteSize front) 0 0 rest) := by
  have hfollows := follows_run hd h (byteSize rest + 1)
  cases hrun : run document tokens (byteSize front) (byteSize rest + 1) with
  | ended result =>
    rw [hrun] at hfollows
    cases hfollows
    rfl
  | torn =>
    rw [hrun] at hfollows
    cases hfollows
  | going p =>
    rw [hrun] at hfollows
    obtain ⟨-, -, hle⟩ := hfollows.of_going
    have hpos := add_le_pos_run hd h hrun
    rw [← Text.byteSize_toList, h, Text.byteSize_append] at hle
    omega

end BlockEdit.Block
