import BlockEdit.Config.Number
import BlockEdit.Config.Value
import BlockEdit.Toml.Lexeme

/-!
# Numbers, dates and times of TOML

Digits may be grouped by single underscores. An integer is decimal, without leading zeros and with
an optional sign, or hexadecimal, octal or binary behind a sign-free `0x`, `0o` or `0b`; it fits 64
bits. A number with a fraction or an exponent is one of floating point, and it is not too large.
Dates and times are checked, but none of the values that are read from a manifest is one.
-/

namespace BlockEdit.Toml

/-- The digits of a group, of which there is at least one, without the underscores between them. -/
def grouped (isDigit : Char → Bool) : List Char → Option (List Char × List Char)
  | [] => none
  | c :: '_' :: cs =>
    if isDigit c then (grouped isDigit cs).map fun (digits, rest) => (c :: digits, rest) else none
  | c :: cs =>
    if isDigit c then
      match cs with
      | d :: _ =>
        if isDigit d then (grouped isDigit cs).map fun (digits, rest) => (c :: digits, rest)
        else some ([c], cs)
      | [] => some ([c], [])
    else none

/-- Decimal digits without a leading zero: a zero stands alone. -/
def decimal : List Char → Option (List Char × List Char)
  | '0' :: cs => some (['0'], cs)
  | cs => grouped Char.isDigit cs

/-- The sign in front of a number, and the text behind it. -/
def sign : List Char → Bool × List Char
  | '-' :: cs => (true, cs)
  | '+' :: cs => (false, cs)
  | cs => (false, cs)

/-- The number of digits in a base. -/
def inBase (base : Nat) (digits : List Char) : Nat :=
  digits.foldl (fun n c => n * base + (hexValue? c).getD 0) 0

/-- An integer with a sign, if it fits 64 bits. -/
def fitted (negative : Bool) (n : Nat) : Option Int :=
  if negative then (if n ≤ Config.signedLimit then some (-(n : Int)) else none)
  else if n < Config.signedLimit then some n else none

/-- An integer of another base behind its mark. -/
def basedInteger? (base : Nat) (isDigit : Char → Bool) : Reader Int := fun cs => do
  let (digits, rest) ← grouped isDigit cs
  return (← fitted false (inBase base digits), rest)

/-- An integer. -/
def integer? : Reader Int := fun cs =>
  match cs with
  | '0' :: 'x' :: cs => basedInteger? 16 (fun c => (hexValue? c).isSome) cs
  | '0' :: 'o' :: cs => basedInteger? 8 (fun c => '0' ≤ c && c ≤ '7') cs
  | '0' :: 'b' :: cs => basedInteger? 2 (fun c => c == '0' || c == '1') cs
  | cs => do
    let (negative, cs) := sign cs
    let (digits, rest) ← decimal cs
    return (← fitted negative (inBase 10 digits), rest)

/-- The exponent behind its letter: its sign if it is negative, and its digits. -/
def exponent? (cs : List Char) : Option (List Char × List Char) := do
  let (negative, cs) := sign cs
  let (digits, rest) ← grouped Char.isDigit cs
  return (if negative then '-' :: digits else digits, rest)

/-- What follows the whole part of a number of floating point. -/
def floatTail? (cs : List Char) : Option (List Char × List Char) :=
  let exponentOf (e : Char) (cs : List Char) : Option (List Char × List Char) :=
    if e == 'e' || e == 'E' then
      (exponent? cs).map fun (digits, rest) => ('e' :: digits, rest)
    else none
  match cs with
  | '.' :: cs => do
    let (fraction, rest) ← grouped Char.isDigit cs
    match rest with
    | e :: after =>
      if e == 'e' || e == 'E' then
        let (exponent, rest) ← exponentOf e after
        return ('.' :: fraction ++ exponent, rest)
      else return ('.' :: fraction, rest)
    | [] => return ('.' :: fraction, [])
  | e :: cs => exponentOf e cs
  | [] => none

/-- The text behind a number of floating point. -/
def skipFloat? (cs : List Char) : Option (List Char) :=
  let (negative, body) := sign cs
  match body with
  | 'i' :: 'n' :: 'f' :: rest => some rest
  | 'n' :: 'a' :: 'n' :: rest => some rest
  | body => do
    let (whole, rest) ← decimal body
    let (tail, rest) ← floatTail? rest
    if !negative && (Config.Decimal.read (whole ++ tail)).isHuge then none else return rest

/-- A number of exactly `n` digits, from `lo` to `hi`. -/
def bounded? (n lo hi : Nat) (cs : List Char) : Option (Nat × List Char) :=
  let digits := cs.take n
  let value := inBase 10 digits
  if digits.length = n ∧ digits.all Char.isDigit ∧ lo ≤ value ∧ value ≤ hi then
    some (value, cs.drop n)
  else none

/-- The number of days of a month. -/
def daysIn (year month : Nat) : Nat :=
  if month = 2 then
    if year % 4 = 0 ∧ (year % 100 ≠ 0 ∨ year % 400 = 0) then 29 else 28
  else if month = 4 ∨ month = 6 ∨ month = 9 ∨ month = 11 then 30
  else 31

/-- The text behind a character that must stand at the head of a text. -/
def skipChar? (c : Char) : List Char → Option (List Char)
  | d :: cs => if c = d then some cs else none
  | [] => none

/-- The text behind a date. -/
def skipDate? (cs : List Char) : Option (List Char) := do
  let (year, cs) ← bounded? 4 0 9999 cs
  let cs ← skipChar? '-' cs
  let (month, cs) ← bounded? 2 1 12 cs
  let cs ← skipChar? '-' cs
  let (_, cs) ← bounded? 2 1 (daysIn year month) cs
  return cs

/-- The text behind the hours and minutes of a day. -/
def skipMinutes? (cs : List Char) : Option (List Char) := do
  let (_, cs) ← bounded? 2 0 23 cs
  let cs ← skipChar? ':' cs
  let (_, cs) ← bounded? 2 0 59 cs
  return cs

/-- The text behind a time of day. -/
def skipTime? (cs : List Char) : Option (List Char) := do
  let cs ← skipMinutes? cs
  let cs ← skipChar? ':' cs
  let (_, cs) ← bounded? 2 0 60 cs
  match cs with
  | '.' :: d :: cs => if d.isDigit then return cs.dropWhile Char.isDigit else none
  | '.' :: [] => none
  | cs => return cs

/-- The text behind the offset from universal time, if one is given. -/
def skipOffset? (cs : List Char) : Option (List Char) :=
  match cs with
  | 'Z' :: cs => some cs
  | 'z' :: cs => some cs
  | '+' :: cs => skipMinutes? cs
  | '-' :: cs => skipMinutes? cs
  | cs => some cs

/-- The text behind a date, a time, or both. -/
def skipMoment? (cs : List Char) : Option (List Char) :=
  match skipDate? cs with
  | some rest =>
    match rest with
    | c :: after =>
      if c == 'T' || c == 't' || c == ' ' then
        match skipTime? after with
        | some rest => skipOffset? rest
        | none => some rest
      else some rest
    | [] => some []
  | none => skipTime? cs

end BlockEdit.Toml
