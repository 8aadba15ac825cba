import BlockEdit.Config.Number
import BlockEdit.Config.Value
import BlockEdit.Json.Value

/-!
# JSON values as configuration values

A JSON value is read as a configuration value when it nests no deeper than `depthLimit`, each of
its strings is a text, and none of its numbers is too large for floating point. Only digits make a
natural number; zero with a sign is none.
-/

namespace BlockEdit.Json

/-- How many arrays and objects may stand inside one another. -/
def depthLimit : Nat := 127

/-- The number of a lexeme of digits, if it is below the limit of naturals. -/
def natural? (lexeme : List Char) : Option Nat :=
  if lexeme.all Char.isDigit && Config.ofDigits lexeme < Config.naturalLimit then
    some (Config.ofDigits lexeme)
  else none

/-- The lexeme, behind a minus sign, of an integer below zero that fits 64 bits. -/
def isNegative (cs : List Char) : Bool :=
  cs.all Char.isDigit && 0 < Config.ofDigits cs && Config.ofDigits cs ≤ Config.signedLimit

/-- A number of floating point, unless it is too large. -/
def ofFloat? (cs : List Char) : Option Config.Value :=
  if (Config.Decimal.read cs).isHuge then none else some .fractional

/-- The configuration value of a number lexeme. -/
def ofNumber? : List Char → Option Config.Value
  | '-' :: cs => if isNegative cs then some .negative else ofFloat? cs
  | cs =>
    match natural? cs with
    | some n => some (.natural n)
    | none => ofFloat? cs

/-- The text of a string lexeme. -/
def text? (lexeme : List Char) : Option String := (unescape? lexeme).map String.ofList

mutual

/-- The configuration value of a JSON value, in which arrays and objects may nest to `depth`. -/
def toConfig? (depth : Nat) : Value → Option Config.Value
  | .null => some .null
  | .bool b => some (.bool b)
  | .number l => ofNumber? l
  | .string l => (text? l).map .text
  | .array items => if depth = 0 then none else (itemsToConfig? (depth - 1) items).map .list
  | .object entries =>
    if depth = 0 then none else (entriesToConfig? (depth - 1) entries).map .table

/-- The configuration values of the items of an array. -/
def itemsToConfig? (depth : Nat) : List Value → Option (List Config.Value)
  | [] => some []
  | v :: vs => do return (← toConfig? depth v) :: (← itemsToConfig? depth vs)

/-- The configuration values of the entries of an object. -/
def entriesToConfig? (depth : Nat) :
    List (List Char × Value) → Option (List (Config.Value × Config.Value))
  | [] => some []
  | (key, v) :: es => do
    return (.text (← text? key), ← toConfig? depth v) :: (← entriesToConfig? depth es)

end

end BlockEdit.Json
