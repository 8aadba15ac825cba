/-!
# TOML values

A TOML document is a table. Tables come about in four ways, and that decides what may still be
added to them: by a header, as a parent of a table that has a header, by a key with dots, or between
braces. A header may add to the tables of headers, parents and dotted keys, a dotted key to parents
and to tables of dotted keys, and nothing to a table between braces. A header of its own makes a
parent an ordinary table, once.
-/

namespace BlockEdit.Toml

/-- How a table came about. -/
inductive Origin where
  | header
  | parent
  | dotted
  | braces
  deriving DecidableEq, Repr

/-- A TOML value. Of numbers of floating point, dates and times nothing more is kept. -/
inductive Value where
  | text (value : String)
  | integer (value : Int)
  | bool (value : Bool)
  | float
  | moment
  | array (items : List Value)
  | table (origin : Origin) (entries : List (String × Value))
  /-- Tables that have the same header, each with an entry list of its own, the last one first. -/
  | tables (members : List (List (String × Value)))
  deriving Repr

/-- The entries of a table. -/
abbrev Entries := List (String × Value)

/-- The entries with the value of a key replaced, or added at the end. -/
def Entries.put (entries : Entries) (key : String) (v : Value) : Entries :=
  match entries with
  | [] => [(key, v)]
  | (k, w) :: rest => if k = key then (k, v) :: rest else (k, w) :: Entries.put rest key v

/-- The entries, in the table of the given origin, with a value added at a path of keys. The table
that takes the value is the one at hand for a single key and one of dotted keys for a longer path:
`dotted` says that the path was longer. -/
def addEntry (origin : Origin) (entries : Entries) (dotted : Bool) :
    (path : List String) → (v : Value) → Option Entries
  | [], _ => none
  | [key], v =>
    if dotted && origin != .dotted then none
    else if (entries.lookup key).isSome then none
    else some (entries.put key v)
  | key :: rest, v =>
    match entries.lookup key with
    | none => (addEntry .dotted [] true rest v).map fun es => entries.put key (.table .dotted es)
    | some (.table o es) =>
      if o = .parent ∨ o = .dotted then
        (addEntry o es true rest v).map fun es => entries.put key (.table o es)
      else none
    | some (.tables (es :: others)) =>
      (addEntry .header es true rest v).map fun es => entries.put key (.tables (es :: others))
    | some _ => none

/-- The entries with a change made to the table that the last header at a path opened. -/
def changeAt (f : Entries → Option Entries) (entries : Entries) : List String → Option Entries
  | [] => f entries
  | key :: path =>
    match entries.lookup key with
    | some (.table o es) =>
      (changeAt f es path).map fun es => entries.put key (.table o es)
    | some (.tables (es :: others)) =>
      (changeAt f es path).map fun es => entries.put key (.tables (es :: others))
    | _ => none

/-- The entries with the table of a header opened. -/
def openTable (entries : Entries) : List String → Option Entries
  | [] => none
  | [key] =>
    match entries.lookup key with
    | none => some (entries.put key (.table .header []))
    | some (.table .parent es) => some (entries.put key (.table .header es))
    | some _ => none
  | key :: path =>
    match entries.lookup key with
    | none => (openTable [] path).map fun es => entries.put key (.table .parent es)
    | some (.table .braces _) => none
    | some (.table o es) => (openTable es path).map fun es => entries.put key (.table o es)
    | some (.tables (es :: others)) =>
      (openTable es path).map fun es => entries.put key (.tables (es :: others))
    | some _ => none

/-- The entries with one more table of a header in double brackets opened. -/
def openMember (entries : Entries) : List String → Option Entries
  | [] => none
  | [key] =>
    match entries.lookup key with
    | none => some (entries.put key (.tables [[]]))
    | some (.tables members) => some (entries.put key (.tables ([] :: members)))
    | some _ => none
  | key :: path =>
    match entries.lookup key with
    | none => (openMember [] path).map fun es => entries.put key (.table .parent es)
    | some (.table .braces _) => none
    | some (.table o es) => (openMember es path).map fun es => entries.put key (.table o es)
    | some (.tables (es :: others)) =>
      (openMember es path).map fun es => entries.put key (.tables (es :: others))
    | some _ => none

end BlockEdit.Toml
