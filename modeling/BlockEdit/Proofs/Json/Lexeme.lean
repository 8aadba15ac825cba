import BlockEdit.Config.Number
import BlockEdit.Json.Token
import Mathlib.Data.List.TakeWhile
import Mathlib.Tactic.Common

/-!
# Lexemes that are written

A text that is written as a string lexeme is found again, whatever stands behind its closing quote
(`stringLexeme?_escape`), and is what the lexeme stands for (`unescape?_escape`). Both go character
by character: a character is written in one of three ways (`escapeChar_cases`).

A number is written with the characters of numbers alone (`isNumberChar_of_isNumber`), so that it
ends where they end. The decimal digits of a natural are such a number (`isNumber_toDigits`) and
have its value (`ofDigits_toDigits`).
-/

namespace BlockEdit.Json

/-! ### Strings -/

section Strings

variable {c : Char}

theorem hexValue?_digitChar : ∀ n < 16, hexValue? (Nat.digitChar n) = some n := by decide

/-- The hexadecimal digits of a control character spell its code point. -/
theorem unit?_controlDigits (h : c.toNat < 0x20) :
    unit? '0' '0' (Nat.digitChar (c.toNat / 16)) (Nat.digitChar (c.toNat % 16)) = some c.toNat := by
  have hzero : hexValue? '0' = some 0 := rfl
  have hhigh := hexValue?_digitChar (c.toNat / 16) (by omega)
  have hlow := hexValue?_digitChar (c.toNat % 16) (by omega)
  simp only [unit?, hzero, hhigh, hlow, Option.pure_def, Option.bind_eq_bind, Option.bind_some,
    Option.some.injEq]
  omega

/-- A character is written behind a backslash, by its code point, or as it is. -/
theorem escapeChar_cases (c : Char) :
    (∃ e, e ≠ 'u' ∧ shortEscape? e = some c ∧ escapeChar c = ['\\', e]) ∨
      (c.toNat < 0x20 ∧ escapeChar c = '\\' :: 'u' :: controlDigits c) ∨
      (c ≠ '"' ∧ c ≠ '\\' ∧ 0x20 ≤ c.toNat ∧ escapeChar c = [c]) := by
  unfold escapeChar
  split
  case h_8 hquote hbackslash _ _ _ _ _ =>
    by_cases hcontrol : c.toNat < 0x20
    · rw [if_pos hcontrol]
      exact .inr (.inl ⟨hcontrol, rfl⟩)
    · rw [if_neg hcontrol]
      exact .inr (.inr ⟨hquote, hbackslash, Nat.le_of_not_lt hcontrol, rfl⟩)
  all_goals exact .inl ⟨_, by decide, rfl, rfl⟩

theorem stringLexeme?_escapeChar (c : Char) (cs : List Char) :
    stringLexeme? (escapeChar c ++ cs) =
      (stringLexeme? cs).map fun (l, rest) => (escapeChar c ++ l, rest) := by
  obtain ⟨e, hu, he, h⟩ | ⟨hcontrol, h⟩ | ⟨hquote, hbackslash, hplain, h⟩ := escapeChar_cases c
  · rw [h]
    simp [stringLexeme?, hu, he]
  · rw [h]
    simp [stringLexeme?, controlDigits, unit?_controlDigits hcontrol]
  · rw [h]
    simp [stringLexeme?, hbackslash, Nat.not_lt.2 hplain]

theorem unescape?_escapeChar (c : Char) (cs : List Char) :
    unescape? (escapeChar c ++ cs) = (unescape? cs).map (c :: ·) := by
  obtain ⟨e, hu, he, h⟩ | ⟨hcontrol, h⟩ | ⟨-, hbackslash, -, h⟩ := escapeChar_cases c
  · rw [h]
    cases hcs : unescape? cs <;> simp [unescape?, hu, he, hcs]
  · have hlow : isLowHalf c.toNat = false := by
      simp only [isLowHalf, Bool.and_eq_false_iff, decide_eq_false_iff_not]
      omega
    have hhigh : isHighHalf c.toNat = false := by
      simp only [isHighHalf, Bool.and_eq_false_iff, decide_eq_false_iff_not]
      omega
    rw [h]
    cases hcs : unescape? cs <;>
      simp [unescape?, controlDigits, unit?_controlDigits hcontrol, hlow, hhigh, hcs]
  · rw [h]
    cases hcs : unescape? cs <;> simp [unescape?, hbackslash, hcs]

/-- The lexeme ends at the quote behind it. -/
def IsStringLexeme (l : List Char) : Prop :=
  ∀ rest, stringLexeme? (l ++ '"' :: rest) = some (l, rest)

theorem stringLexeme?_escape (cs : List Char) : IsStringLexeme (escape cs) := fun rest => by
  induction cs with
  | nil => rfl
  | cons c cs ih =>
    rw [escape, List.flatMap_cons, List.append_assoc, stringLexeme?_escapeChar, ← escape, ih]
    rfl

theorem unescape?_escape (cs : List Char) : unescape? (escape cs) = some cs := by
  induction cs with
  | nil => rfl
  | cons c cs ih =>
    rw [escape, List.flatMap_cons, unescape?_escapeChar, ← escape, ih]
    rfl

end Strings

/-! ### Numbers -/

section Numbers

variable {c : Char} {cs : List Char}

theorem isNumberChar_of_isDigit (h : c.isDigit = true) : isNumberChar c = true := by
  simp [isNumberChar, h]

theorem isNumberChar_of_isDigits (h : isDigits cs = true) : ∀ c ∈ cs, isNumberChar c = true := by
  rw [isDigits, Bool.and_eq_true, List.all_eq_true] at h
  exact fun c hc => isNumberChar_of_isDigit (h.2 c hc)

theorem isNumberChar_of_isExponent (h : isExponent cs = true) :
    ∀ c ∈ cs, isNumberChar c = true := by
  unfold isExponent at h
  split at h
  · exact List.forall_mem_cons.2 ⟨rfl, isNumberChar_of_isDigits h⟩
  · exact List.forall_mem_cons.2 ⟨rfl, isNumberChar_of_isDigits h⟩
  · exact isNumberChar_of_isDigits h

theorem isNumberChar_of_takeWhile (h : ∀ c ∈ cs.dropWhile Char.isDigit, isNumberChar c = true) :
    ∀ c ∈ cs, isNumberChar c = true := by
  intro c hc
  rw [← List.takeWhile_append_dropWhile (p := Char.isDigit) (l := cs), List.mem_append] at hc
  obtain hc | hc := hc
  · exact isNumberChar_of_isDigit (List.mem_takeWhile_imp hc)
  · exact h c hc

theorem isNumberChar_of_isNumberTail (h : isNumberTail cs = true) :
    ∀ c ∈ cs, isNumberChar c = true := by
  have hletter : ∀ {e : Char}, (e == 'e' || e == 'E') = true → isNumberChar e = true := by
    intro e he
    rw [Bool.or_eq_true, beq_iff_eq, beq_iff_eq] at he
    rcases he with rfl | rfl <;> rfl
  unfold isNumberTail at h
  split at h
  · simp
  · next cs =>
    refine List.forall_mem_cons.2 ⟨rfl, isNumberChar_of_takeWhile fun c hc => ?_⟩
    simp only at h
    split at h
    · next hnil => simp [hnil] at hc
    · next e exponent hcons =>
      rw [Bool.and_eq_true, Bool.and_eq_true] at h
      rw [hcons] at hc
      rcases List.mem_cons.1 hc with rfl | hc
      · exact hletter h.1.2
      · exact isNumberChar_of_isExponent h.2 c hc
  · rw [Bool.and_eq_true] at h
    exact List.forall_mem_cons.2 ⟨hletter h.1, isNumberChar_of_isExponent h.2⟩

theorem isNumberChar_of_isUnsigned (h : isUnsigned cs = true) :
    ∀ c ∈ cs, isNumberChar c = true := by
  unfold isUnsigned at h
  split at h
  · exact List.forall_mem_cons.2 ⟨rfl, isNumberChar_of_isNumberTail h⟩
  · rw [Bool.and_eq_true] at h
    exact List.forall_mem_cons.2 ⟨isNumberChar_of_isDigit h.1,
      isNumberChar_of_takeWhile (isNumberChar_of_isNumberTail h.2)⟩
  · cases h

/-- A number is written with the characters of numbers alone. -/
theorem isNumberChar_of_isNumber (h : isNumber cs = true) : ∀ c ∈ cs, isNumberChar c = true := by
  unfold isNumber at h
  split at h
  · exact List.forall_mem_cons.2 ⟨rfl, isNumberChar_of_isUnsigned h⟩
  · exact isNumberChar_of_isUnsigned h

/-- A number begins with its sign or a digit. -/
theorem head_of_isNumber (h : isNumber cs = true) :
    ∃ c rest, cs = c :: rest ∧ (c = '-' ∨ c.isDigit = true) := by
  unfold isNumber at h
  split at h
  · exact ⟨_, _, rfl, .inl rfl⟩
  unfold isUnsigned at h
  split at h
  · exact ⟨_, _, rfl, .inr rfl⟩
  · exact ⟨_, _, rfl, .inr ((Bool.and_eq_true _ _).mp h).1⟩
  · cases h

end Numbers

/-! ### Naturals -/

theorem isDigit_toDigits {n : Nat} {c : Char} (h : c ∈ Nat.toDigits 10 n) : c.isDigit = true :=
  Nat.isDigit_of_mem_toDigits (by decide) (by decide) h

/-- The first digit of a natural is zero only if the natural is zero. -/
theorem head?_toDigits {n : Nat} (hn : n ≠ 0) : (Nat.toDigits 10 n).head? ≠ some '0' := by
  induction n using Nat.strongRecOn with
  | ind n ih =>
    by_cases hsmall : n < 10
    · rw [Nat.toDigits_of_lt_base hsmall]
      have hdigit : ∀ n < 10, n ≠ 0 → [Nat.digitChar n].head? ≠ some '0' := by decide
      exact hdigit n hsmall hn
    · rw [Nat.toDigits_of_base_le (by decide) (Nat.le_of_not_lt hsmall), List.head?_append]
      have hfront := ih (n / 10) (by omega) (by omega)
      cases hhead : (Nat.toDigits 10 (n / 10)).head? with
      | none => exact absurd (List.head?_eq_none_iff.1 hhead) Nat.toDigits_ne_nil
      | some c =>
        rw [hhead] at hfront
        exact hfront

theorem isNumber_toDigits (n : Nat) : isNumber (Nat.toDigits 10 n) = true := by
  obtain rfl | hn := Nat.eq_zero_or_pos n
  · rfl
  have hhead := head?_toDigits (Nat.ne_of_gt hn)
  have hdigits : ∀ c ∈ Nat.toDigits 10 n, c.isDigit = true := fun c => isDigit_toDigits
  obtain ⟨c, cs, hcs⟩ := List.exists_cons_of_ne_nil (Nat.toDigits_ne_nil (n := n) (b := 10))
  rw [hcs] at hhead hdigits ⊢
  obtain ⟨hc, hrest⟩ := List.forall_mem_cons.1 hdigits
  have hsign : c ≠ '-' := by
    rintro rfl
    cases hc
  have hzero : c ≠ '0' := fun h => hhead (by rw [h, List.head?_cons])
  have hnil : cs.dropWhile Char.isDigit = [] := List.dropWhile_eq_nil_iff.2 hrest
  simp [isNumber, isUnsigned, isNumberTail, hsign, hc, hnil]

theorem ofDigits_toDigits (n : Nat) : Config.ofDigits (Nat.toDigits 10 n) = n := by
  conv_rhs => rw [← Nat.ofDigitChars_ten_toDigits (n := n)]
  simp only [Config.ofDigits, Nat.ofDigitChars, Nat.mul_comm]

end BlockEdit.Json
