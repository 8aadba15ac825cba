import BlockEdit.Json.Writer
import BlockEdit.Proofs.Json.Lexeme

/-!
# Reading what is written

A value whose lexemes are well formed (`Value.IsLexical`) is read back from both of its written
forms (`parse?_of_isWritten`). `Value.tokens` stands between text and value: both forms of a value
are cut into its tokens (`tokens?_compact`, `tokens?_pretty`), and the machine that reads values
builds the value from them (`build_tokens`). Each of these statements has any text, or any tokens,
behind the value, and the inductions are on the value, with what is left of an array or an object
behind its first item.
-/

namespace BlockEdit.Json

/-! ### The tokens of a value -/

mutual

/-- The tokens that a value is written with. -/
def Value.tokens : Value → List Token
  | .null => [.null]
  | .bool b => [.bool b]
  | .number l => [.number l]
  | .string l => [.string l]
  | .array [] => [.openBracket, .closeBracket]
  | .array (v :: vs) => .openBracket :: (v.tokens ++ itemTokens vs)
  | .object [] => [.openBrace, .closeBrace]
  | .object ((key, v) :: es) =>
    .openBrace :: .string key :: .colon :: (v.tokens ++ entryTokens es)

/-- The tokens of the items of an array behind the first one, and of its end. -/
def itemTokens : List Value → List Token
  | [] => [.closeBracket]
  | v :: vs => .comma :: (v.tokens ++ itemTokens vs)

/-- The tokens of the entries of an object behind the first one, and of its end. -/
def entryTokens : List (List Char × Value) → List Token
  | [] => [.closeBrace]
  | (key, v) :: es => .comma :: .string key :: .colon :: (v.tokens ++ entryTokens es)

end

mutual

/-- The numbers, strings and keys of the value are ones that can be written. -/
def Value.IsLexical : Value → Prop
  | .null => True
  | .bool _ => True
  | .number l => isNumber l = true
  | .string l => IsStringLexeme l
  | .array vs => AreLexical vs
  | .object es => AreLexicalEntries es

/-- The numbers, strings and keys of all values are ones that can be written. -/
def AreLexical : List Value → Prop
  | [] => True
  | v :: vs => v.IsLexical ∧ AreLexical vs

/-- The numbers, strings and keys of all entries are ones that can be written. -/
def AreLexicalEntries : List (List Char × Value) → Prop
  | [] => True
  | (key, v) :: es => IsStringLexeme key ∧ v.IsLexical ∧ AreLexicalEntries es

end

/-! ### Building -/

section Building

variable {stack : List Frame} {ts : List Token}

/-- A value that begins an array is built inside of it. -/
theorem build_openBracket (v : Value) :
    build stack (.openBracket :: (v.tokens ++ ts)) =
      build (.array [] :: stack) (v.tokens ++ ts) := by
  cases v with
  | array vs => cases vs <;> simp [Value.tokens, build]
  | object es => rcases es with _ | ⟨⟨key, v⟩, es⟩ <;> simp [Value.tokens, build]
  | _ => simp [Value.tokens, build]

/-- A value behind a comma of an array is built inside of it. Where it is a string, no colon follows
that would make it a key. -/
theorem deliver_comma (v w : Value) (items ws : List Value) :
    deliver v (.array items :: stack) (.comma :: (w.tokens ++ (itemTokens ws ++ ts))) =
      build (.array (v :: items) :: stack) (w.tokens ++ (itemTokens ws ++ ts)) := by
  cases w with
  | string l => cases ws <;> simp [Value.tokens, itemTokens, deliver]
  | array vs => cases vs <;> simp [Value.tokens, deliver]
  | object es => rcases es with _ | ⟨⟨key, v⟩, es⟩ <;> simp [Value.tokens, deliver]
  | _ => simp [Value.tokens, deliver]

mutual

/-- The tokens of a value are built into the value. -/
theorem build_tokens (v : Value) (stack : List Frame) (ts : List Token) :
    build stack (v.tokens ++ ts) = deliver v stack ts := by
  match v with
  | .null => rfl
  | .bool b => rfl
  | .number l => rfl
  | .string l => rfl
  | .array [] => rfl
  | .array (v :: vs) =>
    rw [Value.tokens, List.cons_append, List.append_assoc, build_openBracket, build_tokens v,
      deliver_itemTokens vs]
    rfl
  | .object [] => rfl
  | .object ((key, v) :: es) =>
    rw [Value.tokens, List.cons_append, List.cons_append, List.cons_append, List.append_assoc,
      build, build_tokens v, deliver_entryTokens es]
    rfl

theorem deliver_itemTokens (vs : List Value) (v : Value) (items : List Value)
    (stack : List Frame) (ts : List Token) :
    deliver v (.array items :: stack) (itemTokens vs ++ ts) =
      deliver (.array (items.reverse ++ v :: vs)) stack ts := by
  match vs with
  | [] => simp [itemTokens, deliver]
  | w :: ws =>
    rw [itemTokens, List.cons_append, List.append_assoc, deliver_comma, build_tokens w,
      deliver_itemTokens ws]
    simp

theorem deliver_entryTokens (es : List (List Char × Value)) (key : List Char) (v : Value)
    (entries : List (List Char × Value)) (stack : List Frame) (ts : List Token) :
    deliver v (.object entries key :: stack) (entryTokens es ++ ts) =
      deliver (.object (entries.reverse ++ (key, v) :: es)) stack ts := by
  match es with
  | [] => simp [entryTokens, deliver]
  | (key', w) :: es =>
    rw [entryTokens, List.cons_append, List.cons_append, List.cons_append, List.append_assoc,
      deliver, build_tokens w, deliver_entryTokens es]
    simp

end

end Building

/-! ### Cutting a text into tokens -/

section Cutting

variable {cs rest : List Char} {t : Token} {l : List Char}

/-- No number and no word goes on in the text. -/
def Breaks (cs : List Char) : Prop := ∀ c ∈ cs.head?, isNumberChar c = false ∧ c.isAlpha = false

theorem breaks_cons {c : Char} (hnumber : isNumberChar c = false) (hletter : c.isAlpha = false) :
    Breaks (c :: cs) := fun c' hc' => by
  obtain rfl : c = c' := by simpa using hc'
  exact ⟨hnumber, hletter⟩

/-- Where a class of characters does not go on, the characters in front are all that is taken. -/
theorem takeWhile_append_of_head? {p : Char → Bool} (hcs : ∀ c ∈ cs, p c = true)
    (hrest : ∀ c ∈ rest.head?, p c = false) :
    (cs ++ rest).takeWhile p = cs ∧ (cs ++ rest).dropWhile p = rest := by
  rw [List.takeWhile_append_of_pos hcs, List.dropWhile_append_of_pos hcs]
  cases rest with
  | nil => simp
  | cons c rest => simp [hrest c rfl]

theorem tokens?_space {c : Char} (h : isSpace c = true) (cs : List Char) :
    tokens? (c :: cs) = tokens? cs := by
  rw [tokens?, if_pos h]

theorem tokens?_blank (cs : List Char) : tokens? (' ' :: cs) = tokens? cs := tokens?_space rfl cs

theorem tokens?_spaces (h : ∀ c ∈ cs, isSpace c = true) : tokens? (cs ++ rest) = tokens? rest := by
  induction cs with
  | nil => rfl
  | cons c cs ih =>
    obtain ⟨hc, hcs⟩ := List.forall_mem_cons.1 h
    rw [List.cons_append, tokens?_space hc, ih hcs]

theorem tokens?_newLine (level : Nat) (rest : List Char) :
    tokens? (newLine level ++ rest) = tokens? rest := by
  refine tokens?_spaces fun c hc => ?_
  rcases List.mem_cons.1 hc with rfl | hc
  · rfl
  · rw [List.eq_of_mem_replicate hc]
    rfl

theorem tokens?_of_token? {c : Char} (hspace : isSpace c = false)
    (h : token? (c :: cs) = some (t, rest)) :
    tokens? (c :: cs) = (tokens? rest).map (t :: ·) := by
  rw [tokens?, if_neg (by simp [hspace])]
  split
  · next hnone => rw [h] at hnone; cases hnone
  · next t' rest' hsome =>
    rw [h] at hsome
    obtain ⟨rfl, rfl⟩ : t = t' ∧ rest = rest' := by simpa using hsome
    rfl

theorem tokens?_mark {c : Char} (hspace : isSpace c = false) (hquote : c ≠ '"')
    (hmark : mark? c = some t) (cs : List Char) :
    tokens? (c :: cs) = (tokens? cs).map (t :: ·) :=
  tokens?_of_token? hspace (by rw [token?.eq_3 _ _ hquote, hmark])

theorem tokens?_openBrace (cs : List Char) :
    tokens? ('\x7b' :: cs) = (tokens? cs).map (.openBrace :: ·) :=
  tokens?_mark rfl (by decide) rfl cs

theorem tokens?_closeBrace (cs : List Char) :
    tokens? ('\x7d' :: cs) = (tokens? cs).map (.closeBrace :: ·) :=
  tokens?_mark rfl (by decide) rfl cs

theorem tokens?_openBracket (cs : List Char) :
    tokens? ('[' :: cs) = (tokens? cs).map (.openBracket :: ·) :=
  tokens?_mark rfl (by decide) rfl cs

theorem tokens?_closeBracket (cs : List Char) :
    tokens? (']' :: cs) = (tokens? cs).map (.closeBracket :: ·) :=
  tokens?_mark rfl (by decide) rfl cs

theorem tokens?_colon (cs : List Char) : tokens? (':' :: cs) = (tokens? cs).map (.colon :: ·) :=
  tokens?_mark rfl (by decide) rfl cs

theorem tokens?_comma (cs : List Char) : tokens? (',' :: cs) = (tokens? cs).map (.comma :: ·) :=
  tokens?_mark rfl (by decide) rfl cs

theorem tokens?_quoted (hl : IsStringLexeme l) (rest : List Char) :
    tokens? (quoted l ++ rest) = (tokens? rest).map (.string l :: ·) := by
  rw [quoted, List.cons_append, List.cons_append, List.append_assoc, List.singleton_append]
  refine tokens?_of_token? rfl ?_
  rw [token?, hl]
  rfl

/-- A character that stands in a number or a word is no space, no quote and no mark. -/
theorem not_mark_of_isNumberChar_or_isAlpha {c : Char}
    (h : isNumberChar c = true ∨ c.isAlpha = true) :
    isSpace c = false ∧ c ≠ '"' ∧ mark? c = none := by
  refine ⟨?_, ?_, ?_⟩
  · simp only [isSpace, Bool.or_eq_false_iff, beq_eq_false_iff_ne]
    refine ⟨⟨⟨?_, ?_⟩, ?_⟩, ?_⟩ <;> rintro rfl <;> exact absurd h (by decide)
  · rintro rfl
    exact absurd h (by decide)
  · unfold mark?
    split
    case h_7 => rfl
    all_goals exact absurd h (by decide)

theorem isAlpha_eq_false_of_isDigit {c : Char} (h : c.isDigit = true) : c.isAlpha = false := by
  simp only [Char.isDigit, Bool.and_eq_true, decide_eq_true_eq, ge_iff_le,
    UInt32.le_iff_toNat_le] at h
  have hletter : c.isAlpha = (decide (c.val ≥ 'A'.val ∧ c.val ≤ 'Z'.val) ||
      decide (c.val ≥ 'a'.val) && decide (c.val ≤ 'z'.val)) := rfl
  simp only [hletter, Bool.or_eq_false_iff, Bool.and_eq_false_iff, decide_eq_false_iff_not,
    ge_iff_le, UInt32.le_iff_toNat_le]
  change 48 ≤ c.toNat ∧ c.toNat ≤ 57 at h
  change ¬(65 ≤ c.toNat ∧ c.toNat ≤ 90) ∧ (¬97 ≤ c.toNat ∨ ¬c.toNat ≤ 122)
  omega

theorem tokens?_number (hl : isNumber l = true) (hrest : Breaks rest) :
    tokens? (l ++ rest) = (tokens? rest).map (.number l :: ·) := by
  have hchars := isNumberChar_of_isNumber hl
  obtain ⟨c, cs, rfl, hhead⟩ := head_of_isNumber hl
  obtain ⟨hc, hcs⟩ := List.forall_mem_cons.1 hchars
  obtain ⟨hspace, hquote, hmark⟩ := not_mark_of_isNumberChar_or_isAlpha (.inl hc)
  obtain ⟨htake, hdrop⟩ := takeWhile_append_of_head? hcs fun c hc => (hrest c hc).1
  have hletter : c.isAlpha = false := by
    rcases hhead with rfl | hdigit
    · rfl
    · exact isAlpha_eq_false_of_isDigit hdigit
  refine tokens?_of_token? hspace ?_
  rw [token?.eq_3 _ _ hquote, hmark]
  simp [hc, hletter, htake, hdrop, hl]

theorem tokens?_word {c : Char} {w : List Char} (hletters : (c :: w).all Char.isAlpha = true)
    (hword : word? (c :: w) = some t) (hrest : Breaks rest) :
    tokens? (c :: w ++ rest) = (tokens? rest).map (t :: ·) := by
  obtain ⟨hc, hcs⟩ := List.forall_mem_cons.1 (List.all_eq_true.1 hletters)
  obtain ⟨hspace, hquote, hmark⟩ := not_mark_of_isNumberChar_or_isAlpha (.inr hc)
  obtain ⟨htake, hdrop⟩ := takeWhile_append_of_head? hcs fun c hc => (hrest c hc).2
  refine tokens?_of_token? hspace ?_
  rw [token?.eq_3 _ _ hquote, hmark]
  simp [hc, htake, hdrop, hword]

theorem tokens?_null (hrest : Breaks rest) :
    tokens? ("null".toList ++ rest) = (tokens? rest).map (.null :: ·) :=
  tokens?_word (c := 'n') (w := ['u', 'l', 'l']) rfl rfl hrest

theorem tokens?_bool (b : Bool) (hrest : Breaks rest) :
    tokens? (boolChars b ++ rest) = (tokens? rest).map (.bool b :: ·) := by
  cases b with
  | true => exact tokens?_word (c := 't') (w := ['r', 'u', 'e']) rfl rfl hrest
  | false => exact tokens?_word (c := 'f') (w := ['a', 'l', 's', 'e']) rfl rfl hrest

end Cutting

/-! ### One line -/

theorem breaks_compactItems (vs : List Value) (rest : List Char) :
    Breaks (compactItems vs ++ rest) := by
  cases vs <;> exact breaks_cons rfl rfl

theorem breaks_compactEntries (es : List (List Char × Value)) (rest : List Char) :
    Breaks (compactEntries es ++ rest) := by
  rcases es with _ | ⟨⟨key, v⟩, es⟩ <;> exact breaks_cons rfl rfl

mutual

/-- A value on one line is cut into its tokens. -/
theorem tokens?_compact (v : Value) (hv : v.IsLexical) (rest : List Char) (hrest : Breaks rest) :
    tokens? (compact v ++ rest) = (tokens? rest).map (v.tokens ++ ·) := by
  match v with
  | .null => exact tokens?_null hrest
  | .bool b => exact tokens?_bool b hrest
  | .number l => exact tokens?_number hv hrest
  | .string l => exact tokens?_quoted hv rest
  | .array [] =>
    simp [compact, Value.tokens, tokens?_openBracket, tokens?_closeBracket, Function.comp_def]
  | .array (v :: vs) =>
    simp [compact, Value.tokens, tokens?_openBracket,
      tokens?_compact v hv.1 _ (breaks_compactItems vs rest),
      tokens?_compactItems vs hv.2 rest, Function.comp_def]
  | .object [] =>
    simp [compact, Value.tokens, tokens?_openBrace, tokens?_closeBrace, Function.comp_def]
  | .object ((key, v) :: es) =>
    simp [compact, Value.tokens, tokens?_openBrace, tokens?_quoted hv.1, tokens?_colon,
      tokens?_compact v hv.2.1 _ (breaks_compactEntries es rest),
      tokens?_compactEntries es hv.2.2 rest, Function.comp_def]

theorem tokens?_compactItems (vs : List Value) (hvs : AreLexical vs) (rest : List Char) :
    tokens? (compactItems vs ++ rest) = (tokens? rest).map (itemTokens vs ++ ·) := by
  match vs with
  | [] => simp [compactItems, itemTokens, tokens?_closeBracket]
  | v :: vs =>
    simp [compactItems, itemTokens, tokens?_comma,
      tokens?_compact v hvs.1 _ (breaks_compactItems vs rest),
      tokens?_compactItems vs hvs.2 rest, Function.comp_def]

theorem tokens?_compactEntries (es : List (List Char × Value)) (hes : AreLexicalEntries es)
    (rest : List Char) :
    tokens? (compactEntries es ++ rest) = (tokens? rest).map (entryTokens es ++ ·) := by
  match es with
  | [] => simp [compactEntries, entryTokens, tokens?_closeBrace]
  | (key, v) :: es =>
    simp [compactEntries, entryTokens, tokens?_comma, tokens?_quoted hes.1, tokens?_colon,
      tokens?_compact v hes.2.1 _ (breaks_compactEntries es rest),
      tokens?_compactEntries es hes.2.2 rest, Function.comp_def]

end

/-! ### Several lines -/

section Pretty

variable {level : Nat}

theorem breaks_prettyItems (vs : List Value) (rest : List Char) :
    Breaks (prettyItems level vs ++ rest) := by
  cases vs <;> exact breaks_cons rfl rfl

theorem breaks_prettyEntries (es : List (List Char × Value)) (rest : List Char) :
    Breaks (prettyEntries level es ++ rest) := by
  rcases es with _ | ⟨⟨key, v⟩, es⟩ <;> exact breaks_cons rfl rfl

end Pretty

mutual

/-- A value over several lines is cut into its tokens. -/
theorem tokens?_pretty (level : Nat) (v : Value) (hv : v.IsLexical) (rest : List Char)
    (hrest : Breaks rest) :
    tokens? (pretty level v ++ rest) = (tokens? rest).map (v.tokens ++ ·) := by
  match v with
  | .null => exact tokens?_null hrest
  | .bool b => exact tokens?_bool b hrest
  | .number l => exact tokens?_number hv hrest
  | .string l => exact tokens?_quoted hv rest
  | .array [] =>
    simp [pretty, Value.tokens, tokens?_openBracket, tokens?_closeBracket, Function.comp_def]
  | .array (v :: vs) =>
    simp [pretty, Value.tokens, tokens?_openBracket, tokens?_newLine,
      tokens?_pretty (level + 1) v hv.1 _ (breaks_prettyItems vs rest),
      tokens?_prettyItems level vs hv.2 rest, Function.comp_def]
  | .object [] =>
    simp [pretty, Value.tokens, tokens?_openBrace, tokens?_closeBrace, Function.comp_def]
  | .object ((key, v) :: es) =>
    simp [pretty, Value.tokens, tokens?_openBrace, tokens?_newLine, tokens?_quoted hv.1,
      tokens?_colon, tokens?_blank,
      tokens?_pretty (level + 1) v hv.2.1 _ (breaks_prettyEntries es rest),
      tokens?_prettyEntries level es hv.2.2 rest, Function.comp_def]

theorem tokens?_prettyItems (level : Nat) (vs : List Value) (hvs : AreLexical vs)
    (rest : List Char) :
    tokens? (prettyItems level vs ++ rest) = (tokens? rest).map (itemTokens vs ++ ·) := by
  match vs with
  | [] => simp [prettyItems, itemTokens, tokens?_newLine, tokens?_closeBracket]
  | v :: vs =>
    simp [prettyItems, itemTokens, tokens?_comma, tokens?_newLine,
      tokens?_pretty (level + 1) v hvs.1 _ (breaks_prettyItems vs rest),
      tokens?_prettyItems level vs hvs.2 rest, Function.comp_def]

theorem tokens?_prettyEntries (level : Nat) (es : List (List Char × Value))
    (hes : AreLexicalEntries es) (rest : List Char) :
    tokens? (prettyEntries level es ++ rest) = (tokens? rest).map (entryTokens es ++ ·) := by
  match es with
  | [] => simp [prettyEntries, entryTokens, tokens?_newLine, tokens?_closeBrace]
  | (key, v) :: es =>
    simp [prettyEntries, entryTokens, tokens?_comma, tokens?_newLine, tokens?_quoted hes.1,
      tokens?_colon, tokens?_blank,
      tokens?_pretty (level + 1) v hes.2.1 _ (breaks_prettyEntries es rest),
      tokens?_prettyEntries level es hes.2.2 rest, Function.comp_def]

end

/-! ### Texts -/

/-- A text that is a value on one line, or the value over several lines, with any white space
behind it. -/
def Value.IsWritten (v : Value) (text : String) : Prop :=
  ∃ space : List Char, (∀ c ∈ space, isSpace c = true) ∧
    (text.toList = compact v ++ space ∨ text.toList = pretty 0 v ++ space)

theorem isWritten_write (v : Value) : v.IsWritten v.write :=
  ⟨[], nofun, .inl (by rw [Value.write, String.toList_ofList, List.append_nil])⟩

theorem isWritten_writePretty (v : Value) : v.IsWritten v.writePretty :=
  ⟨[], nofun, .inr (by rw [Value.writePretty, String.toList_ofList, List.append_nil])⟩

theorem isWritten_line (v : Value) : v.IsWritten (v.writePretty ++ "\n") := by
  refine ⟨['\n'], List.forall_mem_singleton.2 rfl, .inr ?_⟩
  rw [Value.writePretty, String.toList_append, String.toList_ofList]
  rfl

/-- A text in which a value is written is read as the value. -/
theorem parse?_of_isWritten {v : Value} {text : String} (hv : v.IsLexical)
    (h : v.IsWritten text) : parse? text = some v := by
  obtain ⟨space, hspace, h⟩ := h
  have hbreaks : Breaks space := fun c hc => by
    have := hspace c (List.mem_of_mem_head? hc)
    simp only [isSpace, Bool.or_eq_true, beq_iff_eq] at this
    rcases this with ((rfl | rfl) | rfl) | rfl <;> exact ⟨rfl, rfl⟩
  have hend : tokens? space = some [] := by
    rw [← List.append_nil space, tokens?_spaces hspace, tokens?]
  have htokens : tokens? text.toList = some v.tokens := by
    rcases h with h | h
    · rw [h, tokens?_compact v hv space hbreaks, hend]
      simp
    · rw [h, tokens?_pretty 0 v hv space hbreaks, hend]
      simp
  have hbuild := build_tokens v [] []
  rw [List.append_nil] at hbuild
  rw [parse?, htokens]
  exact hbuild

end BlockEdit.Json
