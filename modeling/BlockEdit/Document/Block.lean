import BlockEdit.Document.Anchor
import BlockEdit.Document.Span

/-!
# Balanced blocks

A block begins with an open token and ends with the close token that brings the nesting depth back
to zero. Tokens are matched as literal text, an open token before a close token, and the search
goes on behind a token that was matched; the scan knows nothing of quoting, comments or longer
names that begin like a token.

* `Block.seek` reads a text from a given depth;
* `Block.locate` and `Block.locateNth` give the span of a block in a document.
-/

namespace BlockEdit

/-- The two literals of one nested structure. -/
structure TokenPair where
  opening : String
  closing : String
  deriving DecidableEq, Repr

/-- The tokens of a markup element: `<name` opens it and `</name>` closes it. -/
def TokenPair.element (name : String) : TokenPair := ⟨"<" ++ name, "</" ++ name ++ ">"⟩

/-- Two literals that can be searched for. -/
structure Delimiters where
  opening : List Char
  closing : List Char
  opening_ne_nil : opening ≠ []
  closing_ne_nil : closing ≠ []

/-- The tokens as literals, unless one of them is empty. -/
def TokenPair.delimiters (tokens : TokenPair) : Except DocumentError Delimiters :=
  if ho : tokens.opening.toList = [] then .error (.emptyToken .opening)
  else if hc : tokens.closing.toList = [] then .error (.emptyToken .closing)
  else .ok ⟨tokens.opening.toList, tokens.closing.toList, ho, hc⟩

namespace Block

/-- Where a block ends and how deep it nests. -/
structure End where
  stop : Nat
  maxDepth : Nat
  deriving DecidableEq, Repr

/-- The end of the block in a text that begins at the offset `pos`, when `depth` blocks are open
there and at most `maxDepth` were open so far. -/
def seek (d : Delimiters) (pos depth maxDepth : Nat) (cs : List Char) : Except Imbalance End :=
  match _ho : Text.after? d.opening cs with
  | some rest =>
    seek d (pos + Text.byteSize d.opening) (depth + 1) (max maxDepth (depth + 1)) rest
  | none =>
    match _hc : Text.after? d.closing cs with
    | some rest =>
      match depth with
      | 0 => .error (.unexpectedClose pos)
      | 1 => .ok ⟨pos + Text.byteSize d.closing, maxDepth⟩
      | depth + 2 => seek d (pos + Text.byteSize d.closing) (depth + 1) maxDepth rest
    | none =>
      match cs with
      | [] => .error (if depth = 0 then .neverOpened pos else .unclosedAtEnd depth pos)
      | c :: cs => seek d (pos + c.utf8Size) depth maxDepth cs
termination_by cs.length
decreasing_by
  · exact Text.length_lt_of_after? d.opening_ne_nil (by assumption)
  · exact Text.length_lt_of_after? d.closing_ne_nil (by assumption)
  · simp

section Seek

variable {d : Delimiters} {pos depth deepest : Nat} {cs rest : List Char}

theorem seek_opening (ho : Text.after? d.opening cs = some rest) :
    seek d pos depth deepest cs =
      seek d (pos + Text.byteSize d.opening) (depth + 1) (max deepest (depth + 1)) rest := by
  rw [seek]
  split <;> simp_all

theorem seek_closing (ho : Text.after? d.opening cs = none)
    (hc : Text.after? d.closing cs = some rest) :
    seek d pos (depth + 2) deepest cs =
      seek d (pos + Text.byteSize d.closing) (depth + 1) deepest rest := by
  rw [seek]
  split
  · simp_all
  · split <;> simp_all

theorem seek_last_closing (ho : Text.after? d.opening cs = none)
    (hc : Text.after? d.closing cs = some rest) :
    seek d pos 1 deepest cs = .ok ⟨pos + Text.byteSize d.closing, deepest⟩ := by
  rw [seek]
  split
  · simp_all
  · split <;> simp_all

theorem seek_unexpected (ho : Text.after? d.opening cs = none)
    (hc : Text.after? d.closing cs = some rest) :
    seek d pos 0 deepest cs = .error (.unexpectedClose pos) := by
  rw [seek]
  split
  · simp_all
  · split <;> simp_all

theorem seek_cons {c : Char} (ho : Text.after? d.opening (c :: cs) = none)
    (hc : Text.after? d.closing (c :: cs) = none) :
    seek d pos depth deepest (c :: cs) = seek d (pos + c.utf8Size) depth deepest cs := by
  rw [seek]
  split
  · simp_all
  · split <;> simp_all

theorem seek_nil :
    seek d pos depth deepest [] =
      .error (if depth = 0 then .neverOpened pos else .unclosedAtEnd depth pos) := by
  have ho := Text.after?_nil d.opening_ne_nil
  have hc := Text.after?_nil d.closing_ne_nil
  rw [seek]
  split
  · simp_all
  · split <;> simp_all

theorem seek_nil_succ :
    seek d pos (depth + 1) deepest [] = .error (.unclosedAtEnd (depth + 1) pos) := by
  rw [seek_nil, if_neg (Nat.succ_ne_zero depth)]

end Seek

/-- The end of the balanced block that begins at the offset `start`. -/
def locateEnd (document : String) (start : Nat) (tokens : TokenPair) :
    Except DocumentError End :=
  match tokens.delimiters with
  | .error e => .error e
  | .ok d =>
    match Text.cutAt? start document.toList with
    | none => .error (.badOffset start document.utf8ByteSize)
    | some (_, rest) => (seek d start 0 0 rest).mapError (.unbalanced start)

/-- The span of the balanced block that begins at the offset `start`. -/
def locate (document : String) (start : Nat) (tokens : TokenPair) : Except DocumentError Span :=
  match locateEnd document start tokens with
  | .error e => .error e
  | .ok e => .ok ⟨start, e.stop⟩

/-- The span of the balanced block that begins at the `occurrence`-th match of `marker`. -/
def locateNth (document marker : String) (occurrence : Nat) (tokens : TokenPair) :
    Except DocumentError Span :=
  match Anchor.find document marker occurrence with
  | .error e => .error e
  | .ok start => locate document start tokens

end Block

end BlockEdit
