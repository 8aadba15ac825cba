import BlockEdit.Json.Token

/-!
# JSON values

A JSON value is a tree. Objects keep their entries in the order of the text, repeated keys
included; strings, keys and numbers are kept as lexemes.

Values are read by a machine that holds the arrays and objects it is inside of on a stack, so that
a text may nest to any depth: `build` waits for a value, `deliver` has one in hand. `parse?` reads
a text that is one value.
-/

namespace BlockEdit.Json

/-- A JSON value. -/
inductive Value where
  | null
  | bool (value : Bool)
  | number (lexeme : List Char)
  | string (lexeme : List Char)
  | array (items : List Value)
  | object (entries : List (List Char × Value))
  deriving Repr

/-- An array or object that is being read: what it holds so far, last one first, and the key of the
entry that is being read. -/
inductive Frame where
  | array (items : List Value)
  | object (entries : List (List Char × Value)) (key : List Char)

mutual

/-- The value of the tokens, when the next one begins a value inside of `stack`. -/
def build (stack : List Frame) : List Token → Option Value
  | .null :: ts => deliver .null stack ts
  | .bool b :: ts => deliver (.bool b) stack ts
  | .number l :: ts => deliver (.number l) stack ts
  | .string l :: ts => deliver (.string l) stack ts
  | .openBracket :: .closeBracket :: ts => deliver (.array []) stack ts
  | .openBracket :: ts => build (.array [] :: stack) ts
  | .openBrace :: .closeBrace :: ts => deliver (.object []) stack ts
  | .openBrace :: .string key :: .colon :: ts => build (.object [] key :: stack) ts
  | _ => none

/-- The value of the tokens, when `v` has just been read inside of `stack`. -/
def deliver (v : Value) (stack : List Frame) : List Token → Option Value
  | [] => if stack.isEmpty then some v else none
  | .comma :: .string key :: .colon :: ts =>
    match stack with
    | .object entries key' :: stack => build (.object ((key', v) :: entries) key :: stack) ts
    | _ => none
  | .comma :: ts =>
    match stack with
    | .array items :: stack => build (.array (v :: items) :: stack) ts
    | _ => none
  | .closeBracket :: ts =>
    match stack with
    | .array items :: stack => deliver (.array (v :: items).reverse) stack ts
    | _ => none
  | .closeBrace :: ts =>
    match stack with
    | .object entries key :: stack => deliver (.object ((key, v) :: entries).reverse) stack ts
    | _ => none
  | _ => none

end

/-- The value that a text is. -/
def parse? (text : String) : Option Value :=
  match tokens? text.toList with
  | some ts => build [] ts
  | none => none

end BlockEdit.Json
