/-!
# JSON tokens

A JSON text is cut into tokens. A string token holds what stands between its quotes, and a number
token its digits and signs, both as they are written (the *lexeme*); what a lexeme means is read
when it is needed. The grammar of a string lexeme admits the escape of half a surrogate pair, which
stands for no character: it is refused only where the string is read (`unescape?`).

* `tokens?` cuts a text into tokens;
* `escape` writes a text as a string lexeme, and `unescape?` reads one.
-/

namespace BlockEdit.Json

/-- A token of a JSON text. -/
inductive Token where
  | openBrace
  | closeBrace
  | openBracket
  | closeBracket
  | colon
  | comma
  | null
  | bool (value : Bool)
  | number (lexeme : List Char)
  | string (lexeme : List Char)
  deriving DecidableEq, Repr

/-- White space between tokens. -/
def isSpace (c : Char) : Bool := c == ' ' || c == '\t' || c == '\n' || c == '\r'

/-- The value of a hexadecimal digit. -/
def hexValue? (c : Char) : Option Nat :=
  if '0' ≤ c ∧ c ≤ '9' then some (c.toNat - '0'.toNat)
  else if 'a' ≤ c ∧ c ≤ 'f' then some (c.toNat - 'a'.toNat + 10)
  else if 'A' ≤ c ∧ c ≤ 'F' then some (c.toNat - 'A'.toNat + 10)
  else none

/-- The value of four hexadecimal digits. -/
def unit? (a b c d : Char) : Option Nat := do
  let a ← hexValue? a
  let b ← hexValue? b
  let c ← hexValue? c
  let d ← hexValue? d
  return ((a * 16 + b) * 16 + c) * 16 + d

/-- The character that a backslash and `c` stand for. -/
def shortEscape? (c : Char) : Option Char :=
  match c with
  | '"' => some '"'
  | '\\' => some '\\'
  | '/' => some '/'
  | 'b' => some '\x08'
  | 'f' => some '\x0c'
  | 'n' => some '\n'
  | 'r' => some '\r'
  | 't' => some '\t'
  | _ => none

/-- The lexeme of a string whose opening quote has been read, and the text behind its closing
quote. -/
def stringLexeme? : List Char → Option (List Char × List Char)
  | [] => none
  | '"' :: cs => some ([], cs)
  | '\\' :: 'u' :: a :: b :: c :: d :: cs =>
    if (unit? a b c d).isSome then
      (stringLexeme? cs).map fun (l, rest) => ('\\' :: 'u' :: a :: b :: c :: d :: l, rest)
    else none
  | '\\' :: e :: cs =>
    if (shortEscape? e).isSome then
      (stringLexeme? cs).map fun (l, rest) => ('\\' :: e :: l, rest)
    else none
  | c :: cs =>
    if c.toNat < 0x20 || c == '\\' then none
    else (stringLexeme? cs).map fun (l, rest) => (c :: l, rest)

/-- The character stands in numbers. -/
def isNumberChar (c : Char) : Bool :=
  c.isDigit || c == '-' || c == '+' || c == '.' || c == 'e' || c == 'E'

/-- One digit or more, and nothing else. -/
def isDigits (cs : List Char) : Bool := !cs.isEmpty && cs.all Char.isDigit

/-- The exponent of a number, without its letter. -/
def isExponent : List Char → Bool
  | '+' :: cs => isDigits cs
  | '-' :: cs => isDigits cs
  | cs => isDigits cs

/-- What may follow the integer part of a number. -/
def isNumberTail : List Char → Bool
  | [] => true
  | '.' :: cs =>
    let fraction := cs.takeWhile Char.isDigit
    match cs.dropWhile Char.isDigit with
    | [] => isDigits fraction
    | e :: cs => isDigits fraction && (e == 'e' || e == 'E') && isExponent cs
  | e :: cs => (e == 'e' || e == 'E') && isExponent cs

/-- A number without a sign: its integer part has no leading zero. -/
def isUnsigned : List Char → Bool
  | '0' :: cs => isNumberTail cs
  | c :: cs => c.isDigit && isNumberTail (cs.dropWhile Char.isDigit)
  | [] => false

/-- The grammar of number lexemes. -/
def isNumber : List Char → Bool
  | '-' :: cs => isUnsigned cs
  | cs => isUnsigned cs

/-- The token that a word of letters is. -/
def word? (cs : List Char) : Option Token :=
  if cs = ['n', 'u', 'l', 'l'] then some .null
  else if cs = ['t', 'r', 'u', 'e'] then some (.bool true)
  else if cs = ['f', 'a', 'l', 's', 'e'] then some (.bool false)
  else none

/-- The token that is one character. -/
def mark? (c : Char) : Option Token :=
  match c with
  | '\x7b' => some .openBrace
  | '\x7d' => some .closeBrace
  | '[' => some .openBracket
  | ']' => some .closeBracket
  | ':' => some .colon
  | ',' => some .comma
  | _ => none

/-- The first token of a text that does not begin with white space, and the text behind it. -/
def token? : List Char → Option (Token × List Char)
  | [] => none
  | '"' :: cs => (stringLexeme? cs).map fun (l, rest) => (.string l, rest)
  | c :: cs =>
    match mark? c with
    | some t => some (t, cs)
    | none =>
      if isNumberChar c && !c.isAlpha then
        let lexeme := c :: cs.takeWhile isNumberChar
        if isNumber lexeme then some (.number lexeme, cs.dropWhile isNumberChar) else none
      else if c.isAlpha then
        (word? (c :: cs.takeWhile Char.isAlpha)).map fun t => (t, cs.dropWhile Char.isAlpha)
      else none

theorem length_stringLexeme? {cs l rest : List Char} (h : stringLexeme? cs = some (l, rest)) :
    rest.length < cs.length := by
  fun_induction stringLexeme? cs generalizing l rest with
  | case1 => simp at h
  | case2 cs => simp at h; simp [h.2]
  | case3 a b c d cs _ ih =>
    obtain ⟨⟨l', r'⟩, hl, he⟩ := Option.map_eq_some_iff.1 h
    have := ih hl
    simp_all
    omega
  | case4 => simp at h
  | case5 e cs _ _ ih =>
    obtain ⟨⟨l', r'⟩, hl, he⟩ := Option.map_eq_some_iff.1 h
    have := ih hl
    simp_all
    omega
  | case6 => simp at h
  | case7 => simp at h
  | case8 c cs _ _ _ _ ih =>
    obtain ⟨⟨l', r'⟩, hl, he⟩ := Option.map_eq_some_iff.1 h
    have := ih hl
    simp_all
    omega

theorem length_token? {cs rest : List Char} {t : Token} (h : token? cs = some (t, rest)) :
    rest.length < cs.length := by
  unfold token? at h
  split at h
  · simp at h
  · obtain ⟨⟨l, r⟩, hl, he⟩ := Option.map_eq_some_iff.1 h
    have := length_stringLexeme? hl
    simp_all
    omega
  · next c cs _ =>
    have hn := (List.dropWhile_sublist (l := cs) isNumberChar).length_le
    have ha := (List.dropWhile_sublist (l := cs) Char.isAlpha).length_le
    split at h
    · simp_all
    · split at h
      · simp only at h
        split at h
        · simp only [Option.some.injEq, Prod.mk.injEq] at h
          rw [← h.2]; simp; omega
        · simp at h
      · split at h
        · obtain ⟨t', _, he⟩ := Option.map_eq_some_iff.1 h
          simp only [Prod.mk.injEq] at he
          rw [← he.2]; simp; omega
        · simp at h

/-- The tokens of a text, in which white space may stand before, between and behind them. -/
def tokens? (cs : List Char) : Option (List Token) :=
  match cs with
  | [] => some []
  | c :: rest =>
    if isSpace c then tokens? rest
    else
      match _h : token? (c :: rest) with
      | none => none
      | some (t, rest') => (tokens? rest').map (t :: ·)
termination_by cs.length
decreasing_by
  · simp
  · exact length_token? (by assumption)

/-- The four hexadecimal digits of a control character. -/
def controlDigits (c : Char) : List Char :=
  ['0', '0', Nat.digitChar (c.toNat / 16), Nat.digitChar (c.toNat % 16)]

/-- A character as it stands in a string lexeme: quotes, backslashes and controls are escaped. -/
def escapeChar (c : Char) : List Char :=
  match c with
  | '"' => ['\\', '"']
  | '\\' => ['\\', '\\']
  | '\x08' => ['\\', 'b']
  | '\x0c' => ['\\', 'f']
  | '\n' => ['\\', 'n']
  | '\r' => ['\\', 'r']
  | '\t' => ['\\', 't']
  | c => if c.toNat < 0x20 then '\\' :: 'u' :: controlDigits c else [c]

/-- The string lexeme of a text. -/
def escape (cs : List Char) : List Char := cs.flatMap escapeChar

/-- The first half of a surrogate pair. -/
def isHighHalf (n : Nat) : Bool := 0xd800 ≤ n && n ≤ 0xdbff

/-- The second half of a surrogate pair. -/
def isLowHalf (n : Nat) : Bool := 0xdc00 ≤ n && n ≤ 0xdfff

/-- The character of a surrogate pair. -/
def ofHalves (high low : Nat) : Char :=
  Char.ofNat (0x10000 + (high - 0xd800) * 0x400 + (low - 0xdc00))

/-- The text that a string lexeme stands for, unless half a surrogate pair stands alone in it. -/
def unescape? : List Char → Option (List Char)
  | [] => some []
  | '\\' :: 'u' :: a :: b :: c :: d :: cs => do
    let n ← unit? a b c d
    if isLowHalf n then none
    else if isHighHalf n then
      match cs with
      | '\\' :: 'u' :: a' :: b' :: c' :: d' :: cs =>
        let m ← unit? a' b' c' d'
        if isLowHalf m then return ofHalves n m :: (← unescape? cs) else none
      | _ => none
    else return Char.ofNat n :: (← unescape? cs)
  | '\\' :: e :: cs => do return (← shortEscape? e) :: (← unescape? cs)
  | c :: cs => do return c :: (← unescape? cs)

end BlockEdit.Json
