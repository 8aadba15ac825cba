import BlockEdit.Text.Unseen

/-!
# Quoted text

Messages show a marker between double quotes, so that it stays on one line and each of its
characters can be told apart. A quote and a backslash get a backslash; NUL, tab, line feed and
carriage return have short forms; a character with no visible form of its own is written as its
number in braces; all else stands for itself.
-/

namespace BlockEdit.Text

/-- The lower-case hexadecimal digits of a number, without leading zeros. -/
def hexDigits (n : Nat) : List Char := Nat.toDigits 16 n

/-- One character of a quoted text. -/
def quoteChar (c : Char) : List Char :=
  match c with
  | '"' => ['\\', '"']
  | '\\' => ['\\', '\\']
  | '\x00' => ['\\', '0']
  | '\t' => ['\\', 't']
  | '\n' => ['\\', 'n']
  | '\r' => ['\\', 'r']
  | c => if isUnseen c then ['\\', 'u', '\x7b'] ++ hexDigits c.toNat ++ ['\x7d'] else [c]

/-- A text between double quotes. -/
def quote (s : String) : String :=
  String.ofList ('"' :: s.toList.flatMap quoteChar ++ ['"'])

end BlockEdit.Text
