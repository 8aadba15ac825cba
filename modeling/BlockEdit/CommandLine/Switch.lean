import BlockEdit.Config.Number
import BlockEdit.Config.Value

/-!
# Arguments and switches

The arguments of a command are operands and switches. A switch has a long name, which stands behind
two dashes, and may have a letter, which stands behind one. It is a flag, or it takes a value of
some kind.
-/

namespace BlockEdit.CommandLine

/-- An argument of the command line: bytes, which need not be text. -/
abbrev Argument := List UInt8

/-- The text of an argument that is one. -/
def Argument.text? (a : Argument) : Option String := String.fromUTF8? a.toByteArray

/-- The argument of a text. -/
def Argument.ofText (s : String) : Argument := s.toUTF8.toList

/-- The number that decimal digits stand for, behind a plus sign or not. -/
def number? (s : String) : Option Nat :=
  let digits :=
    match s.toList with
    | '+' :: cs => cs
    | cs => cs
  if !digits.isEmpty && digits.all Char.isDigit && Config.ofDigits digits < Config.naturalLimit then
    some (Config.ofDigits digits)
  else none

/-- What the value of a switch has to be. -/
inductive ValueKind where
  | text
  | number
  | path
  deriving DecidableEq, Repr

/-- The argument is a value of the kind. -/
def ValueKind.admits : ValueKind → Argument → Bool
  | text, a => a.text?.isSome
  | number, a => (a.text?.bind number?).isSome
  | path, a => !a.isEmpty

/-- A switch; without a kind of value it is a flag. -/
structure Switch where
  name : String
  letter : Option Char
  value : Option ValueKind
  deriving DecidableEq, Repr

/-- A flag. -/
def Switch.flag (name : String) : Switch := ⟨name, none, none⟩

/-- A switch with a value. -/
def Switch.taking (kind : ValueKind) (name : String) : Switch := ⟨name, none, some kind⟩

/-- A switch that has a letter as well. -/
def Switch.withLetter (s : Switch) (letter : Char) : Switch := { s with letter := some letter }

end BlockEdit.CommandLine
