import BlockEdit.Toml.Number
import BlockEdit.Toml.Value

/-!
# TOML documents

A document is a list of lines: blank lines and comments, entries, and headers, each entry belonging
to the last header in front of it. `parse?` reads the table that a document is. A byte order mark in
front of a document is left out.
-/

namespace BlockEdit.Toml

mutual

/-- A value, in which lists and tables may nest to `depth`. -/
def value? : (fuel depth : Nat) → Reader Value
  | 0, _, _ => none
  | fuel + 1, depth, cs =>
    match cs with
    | '"' :: _ => (string? cs).map fun (s, rest) => (.text s, rest)
    | '\x27' :: _ => (string? cs).map fun (s, rest) => (.text s, rest)
    | '[' :: rest =>
      if depth = 0 then none
      else (items? fuel (depth - 1) rest).map fun (vs, rest) => (.array vs, rest)
    | '\x7b' :: rest =>
      if depth = 0 then none
      else
        match skipSpace rest with
        | '\x7d' :: rest => some (.table .braces [], rest)
        | rest => (braced? fuel (depth - 1) [] rest).map fun (es, rest) => (.table .braces es, rest)
    | 't' :: 'r' :: 'u' :: 'e' :: rest => some (.bool true, rest)
    | 'f' :: 'a' :: 'l' :: 's' :: 'e' :: rest => some (.bool false, rest)
    | 'i' :: _ => (skipFloat? cs).map fun rest => (.float, rest)
    | 'n' :: _ => (skipFloat? cs).map fun rest => (.float, rest)
    | c :: _ =>
      if c == '+' || c == '-' || c.isDigit then
        match skipMoment? cs with
        | some rest => some (.moment, rest)
        | none =>
          match skipFloat? cs with
          | some rest => some (.float, rest)
          | none => (integer? cs).map fun (n, rest) => (.integer n, rest)
      else none
    | [] => none

/-- The items of a list behind its opening bracket or behind a comma. -/
def items? : (fuel depth : Nat) → Reader (List Value)
  | 0, _, _ => none
  | fuel + 1, depth, cs => do
    match ← skipBlank cs with
    | ']' :: rest => return ([], rest)
    | cs =>
      let (v, rest) ← value? fuel depth cs
      match ← skipBlank rest with
      | ',' :: rest =>
        let (vs, rest) ← items? fuel depth rest
        return (v :: vs, rest)
      | ']' :: rest => return ([v], rest)
      | _ => none

/-- The entries of a table between braces, behind the opening one or behind a comma; `entries` are
those in front. -/
def braced? : (fuel depth : Nat) → (entries : Entries) → Reader Entries
  | 0, _, _, _ => none
  | fuel + 1, depth, entries, cs => do
    let (path, rest) ← key? cs
    let rest ← skipChar? '=' rest
    let (v, rest) ← value? fuel depth (skipSpace rest)
    let entries ← addEntry .braces entries false path v
    match skipSpace rest with
    | ',' :: rest => braced? fuel depth entries rest
    | '\x7d' :: rest => return (entries, rest)
    | _ => none

end

/-- A document that is being read: its table, and the header whose table takes the next entry. -/
structure Draft where
  entries : Entries
  header : List String

/-- An entry with the rest of its line. -/
def entry? (cs : List Char) : Option (List String × Value × List Char) := do
  let (path, rest) ← key? cs
  let rest ← skipChar? '=' rest
  let (v, rest) ← value? (2 * rest.length + 2) depthLimit (skipSpace rest)
  let rest ← lineEnd? rest
  return (path, v, rest)

/-- The lines of a document, read into a draft. -/
def lines? : (fuel : Nat) → Draft → List Char → Option Entries
  | 0, _, _ => none
  | fuel + 1, draft, cs =>
    match skipSpace cs with
    | [] => some draft.entries
    | '#' :: cs => do lines? fuel draft (← lineEnd? ('#' :: cs))
    | '\n' :: cs => lines? fuel draft cs
    | '\r' :: cs => do lines? fuel draft (← newline? ('\r' :: cs))
    | '[' :: '[' :: cs => do
      let (path, rest) ← key? cs
      let rest ← skipChar? ']' rest
      let rest ← skipChar? ']' rest
      let rest ← lineEnd? rest
      lines? fuel ⟨← openMember draft.entries path, path⟩ rest
    | '[' :: cs => do
      let (path, rest) ← key? cs
      let rest ← skipChar? ']' rest
      let rest ← lineEnd? rest
      lines? fuel ⟨← openTable draft.entries path, path⟩ rest
    | cs => do
      let (path, v, rest) ← entry? cs
      let entries ← changeAt (addEntry .header · false path v) draft.entries draft.header
      lines? fuel { draft with entries := entries } rest

/-- The table that a document is. -/
def parse? (text : String) : Option Entries :=
  let cs := match text.toList with
    | '\ufeff' :: cs => cs
    | cs => cs
  lines? (cs.length + 1) ⟨[], []⟩ cs

end BlockEdit.Toml
