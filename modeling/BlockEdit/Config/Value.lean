/-!
# Configuration values

What a configuration text says, whatever its format: a tree of truth values, numbers, texts, lists
and tables. Tables keep their entries in order, repeated keys included; in some formats a key need
not be a text. Of numbers that are not natural it is only known which kind they are.
-/

namespace BlockEdit.Config

/-- The least natural number that does not fit 64 bits. -/
def naturalLimit : Nat := Nat.pow 2 64

/-- The least natural number that does not fit 64 bits of which one is a sign. -/
def signedLimit : Nat := Nat.pow 2 63

/-- A configuration value. -/
inductive Value where
  | null
  | bool (value : Bool)
  /-- A natural number below `naturalLimit`. -/
  | natural (value : Nat)
  /-- An integer below zero. -/
  | negative
  /-- A number that is not written as an integer, or is too large for one. -/
  | fractional
  | text (value : String)
  | list (items : List Value)
  | table (entries : List (Value × Value))
  deriving Repr

/-- The text of a text value. -/
def Value.text? : Value → Option String
  | .text s => some s
  | _ => none

/-- The number of a natural value. -/
def Value.natural? : Value → Option Nat
  | .natural n => some n
  | _ => none

/-- A table without entries or nothing: what may stand behind a bare name. -/
def Value.isUnit : Value → Bool
  | .null => true
  | .table [] => true
  | _ => false

end BlockEdit.Config
