/-!
# Sizes of decimal numbers

Every configuration format can write numbers that are too large for floating point, and none of
them keeps such a number. Whether a decimal number is too large is decided exactly, from its digits
and its exponent.
-/

namespace BlockEdit.Config

/-- The number that a list of decimal digits stands for. -/
def ofDigits (cs : List Char) : Nat := cs.foldl (fun n c => n * 10 + (c.toNat - '0'.toNat)) 0

/-- The least number that is too large for floating point: halfway from the largest finite number
to the next power of two. -/
def floatLimit : Nat := Nat.pow 2 1024 - Nat.pow 2 970

/-- A decimal number without its sign: its digits, how many of them stand behind the point, and the
exponent of ten. -/
structure Decimal where
  digits : List Char
  places : Nat
  exponent : Int

namespace Decimal

/-- The digits around a point, and the exponent behind its letter, of a well-formed number. -/
def read (cs : List Char) : Decimal :=
  let whole := cs.takeWhile Char.isDigit
  let rest := cs.dropWhile Char.isDigit
  let (fraction, rest) :=
    match rest with
    | '.' :: rest => (rest.takeWhile Char.isDigit, rest.dropWhile Char.isDigit)
    | rest => ([], rest)
  let exponent : Int :=
    match rest with
    | _ :: '-' :: digits => -(ofDigits digits : Int)
    | _ :: '+' :: digits => ofDigits digits
    | _ :: digits => ofDigits digits
    | [] => 0
  ⟨whole ++ fraction, fraction.length, exponent⟩

/-- The number is too large for floating point. -/
def isHuge (d : Decimal) : Bool :=
  let m := ofDigits d.digits
  let e := d.exponent - d.places
  if m = 0 then false
  else if e < 0 then
    -- with more places than digits the number is below one
    (-e).toNat ≤ d.digits.length && floatLimit * Nat.pow 10 (-e).toNat ≤ m
  else if 310 < e then true
  else floatLimit ≤ m * Nat.pow 10 e.toNat

end Decimal

end BlockEdit.Config
