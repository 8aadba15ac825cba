import BlockEdit.Json.Value

/-!
# Writing JSON

A value is written on one line (`compact`) or over several (`pretty`): there each item and each
entry has a line of its own, indented by two spaces for each level, a key is followed by a colon
and a space, and an empty array or object stays on one line.
-/

namespace BlockEdit.Json

/-- A text as a JSON value. -/
def Value.ofText (s : String) : Value := .string (escape s.toList)

/-- A natural number as a JSON value. -/
def Value.ofNat (n : Nat) : Value := .number (Nat.toDigits 10 n)

/-- An object with the given keys, in their order. -/
def Value.ofEntries (entries : List (String × Value)) : Value :=
  .object (entries.map fun (key, v) => (escape key.toList, v))

/-- A string lexeme between its quotes. -/
def quoted (lexeme : List Char) : List Char := '"' :: lexeme ++ ['"']

/-- A truth value as it is written. -/
def boolChars (b : Bool) : List Char := if b then "true".toList else "false".toList

mutual

/-- A value on one line. -/
def compact : Value → List Char
  | .null => "null".toList
  | .bool b => boolChars b
  | .number l => l
  | .string l => quoted l
  | .array [] => ['[', ']']
  | .array (v :: vs) => '[' :: compact v ++ compactItems vs
  | .object [] => ['\x7b', '\x7d']
  | .object ((key, v) :: es) => '\x7b' :: quoted key ++ ':' :: compact v ++ compactEntries es

/-- The items of an array behind the first one, and its end. -/
def compactItems : List Value → List Char
  | [] => [']']
  | v :: vs => ',' :: compact v ++ compactItems vs

/-- The entries of an object behind the first one, and its end. -/
def compactEntries : List (List Char × Value) → List Char
  | [] => ['\x7d']
  | (key, v) :: es => ',' :: quoted key ++ ':' :: compact v ++ compactEntries es

end

/-- A new line at the given level. -/
def newLine (level : Nat) : List Char := '\n' :: List.replicate (2 * level) ' '

mutual

/-- A value over several lines, when it begins at the given level. -/
def pretty (level : Nat) : Value → List Char
  | .null => "null".toList
  | .bool b => boolChars b
  | .number l => l
  | .string l => quoted l
  | .array [] => ['[', ']']
  | .array (v :: vs) =>
    '[' :: newLine (level + 1) ++ pretty (level + 1) v ++ prettyItems level vs
  | .object [] => ['\x7b', '\x7d']
  | .object ((key, v) :: es) =>
    '\x7b' :: newLine (level + 1) ++ quoted key ++ ':' :: ' ' :: pretty (level + 1) v ++
      prettyEntries level es

/-- The items of an array behind the first one, and its end. -/
def prettyItems (level : Nat) : List Value → List Char
  | [] => newLine level ++ [']']
  | v :: vs => ',' :: newLine (level + 1) ++ pretty (level + 1) v ++ prettyItems level vs

/-- The entries of an object behind the first one, and its end. -/
def prettyEntries (level : Nat) : List (List Char × Value) → List Char
  | [] => newLine level ++ ['\x7d']
  | (key, v) :: es =>
    ',' :: newLine (level + 1) ++ quoted key ++ ':' :: ' ' :: pretty (level + 1) v ++
      prettyEntries level es

end

/-- The text of a value on one line. -/
def Value.write (v : Value) : String := String.ofList (compact v)

/-- The text of a value over several lines. -/
def Value.writePretty (v : Value) : String := String.ofList (pretty 0 v)

end BlockEdit.Json
