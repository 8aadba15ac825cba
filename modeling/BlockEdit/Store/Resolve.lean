import BlockEdit.Path.Pieces
import BlockEdit.Store.Fault
import BlockEdit.Store.Basic

/-!
# From paths to locations

A path is a text. It is walked name by name from the root or from the working directory: an empty
name and `.` stay, `..` leads to the parent directory, and a symbolic link is walked in the place of
its name, the last one only if links are followed (`follow`). `maxLinks` links may be met on the
way. Each name but the last has to be there; what stands at the last one, if anything, is not looked
at.

`Store.locate? follow path` is the location that a path leads to.
-/

namespace BlockEdit.Store

/-- How many symbolic links a path may lead through. -/
def maxLinks : Nat := 40

/-- The size of the longest name, in bytes. -/
def maxNameSize : Nat := 255

/-- The size of the longest path, in bytes. -/
def maxPathSize : Nat := 4095

/-- The names of a path. One that ends with a separator leads into a directory. -/
def names (path : List Char) : List String :=
  let named := ((Path.pieces path).filter (· ≠ [])).map String.ofList
  if path.getLast? = some '/' ∧ named ≠ [] then named ++ ["."] else named

/-- Where the walk along a path begins, for somebody in the directory `here`. -/
def origin (here : Location) (path : List Char) : Location :=
  if path.head? = some '/' then [] else here

/-- How a walk ends that leads through no symbolic link. -/
inductive Walk where
  | arrived (l : Location)
  /-- The target of a link has to be walked from `here`, and then `rest`. -/
  | detour (here : Location) (target : String) (rest : List String)
  | lost (fault : Fault)

/-- A walk along names, up to the first link on the way. -/
def advance (s : Store) (follow : Bool) (here : Location) : List String → Walk
  | [] => .arrived here
  | name :: rest =>
    match s.node? here with
    | some .directory =>
      if name = "." then s.advance follow here rest
      else if name = ".." then s.advance follow here.dropLast rest
      else if maxNameSize < name.utf8ByteSize then .lost .nameTooLong
      else
        match s.node? (here ++ [name]) with
        | some (.link target) =>
          if rest = [] ∧ follow = false then .arrived (here ++ [name])
          else .detour here target rest
        | some _ => s.advance follow (here ++ [name]) rest
        | none => if rest = [] then .arrived (here ++ [name]) else .lost .notFound
    | some _ => .lost .notDirectory
    | none => .lost .notFound

/-- A walk along names, through at most `links` links. -/
def walk (s : Store) (follow : Bool) :
    (links : Nat) → Location → List String → Except Fault Location
  | links, here, path =>
    match s.advance follow here path with
    | .arrived l => .ok l
    | .lost fault => .error fault
    | .detour here target rest =>
      match links with
      | 0 => .error .tooManyLinks
      | links + 1 =>
        s.walk follow links (origin here target.toList) (names target.toList ++ rest)

/-- The location that a path leads to. -/
def locate? (s : Store) (follow : Bool) (path : String) : Except Fault Location :=
  let cs := path.toList
  if '\x00' ∈ cs then .error .unusablePath
  else if path = "" then .error .notFound
  else if maxPathSize < path.utf8ByteSize then .error .nameTooLong
  else s.walk follow maxLinks (origin s.workingDirectory cs) (names cs)

/-- The location that a path leads to, and what stands there. -/
def find? (s : Store) (path : String) : Except Fault (Location × FileNode) :=
  match s.locate? true path with
  | .error fault => .error fault
  | .ok l =>
    match s.node? l with
    | some n => .ok (l, n)
    | none => .error .notFound

/-- The path of a location from the root. -/
def pathOf (l : Location) : String := String.ofList ('/' :: Path.joinPieces (l.map String.toList))

/-- The path without links, `.` and `..` that leads where a path leads. -/
def canonical? (s : Store) (path : String) : Except Fault String :=
  (s.find? path).map fun (l, _) => pathOf l

/-- Something stands where a path leads. -/
def hasPath (s : Store) (path : String) : Bool :=
  match s.find? path with
  | .ok _ => true
  | .error _ => false

/-- A file stands where a path leads. -/
def hasFile (s : Store) (path : String) : Bool :=
  match s.find? path with
  | .ok (_, .file _) => true
  | _ => false

/-- A directory stands where a path leads. -/
def hasDirectory (s : Store) (path : String) : Bool :=
  match s.find? path with
  | .ok (_, .directory) => true
  | _ => false

end BlockEdit.Store
