import BlockEdit.CommandLine.Run

/-!
# The files of a command

Before a command is run its files have to be brought into a store. `Command.files` lists the paths
that a command looks at: those that it names, and the targets of the jobs of its manifest once the
store holds the manifest.
-/

namespace BlockEdit.CommandLine

/-- The path of an argument that is one. -/
def pathsOf (a : Argument) : List Path :=
  match pathOf? a with
  | .ok path => [path]
  | .error _ => []

/-- The file of a source that is one. -/
def TextSource.files : TextSource → List Path
  | inline _ => []
  | file path => pathsOf path

/-- The targets of the jobs of the manifest at a path. -/
def targets (s : Store) (path : Path) : List Path :=
  match s.loadManifest path with
  | .ok manifest => manifest.jobs.map (·.target (path.parent?.getD (.ofString ".")))
  | .error _ => []

/-- The paths that a command looks at. -/
def Command.files (s : Store) : Command → List Path
  | insert file _ content _ _ => pathsOf file ++ content.files
  | replaceBlock file _ _ replacement _ => pathsOf file ++ replacement.files
  | locate file _ _ _ => pathsOf file
  | apply manifest _ _ _ => pathsOf manifest ++ (pathsOf manifest).flatMap (targets s)
  | completions => []

/-- The paths that what the arguments ask for looks at. -/
def filesOf (s : Store) (arguments : List Argument) : List Path :=
  match Request.ofArguments arguments with
  | .ok (.command c) => c.files s
  | _ => []

/-- A node that a store has at a location where another one has not the same. -/
def changes (before after : Store) : List (Location × FileNode) :=
  after.nodes.toList.filter fun (l, n) => before.node? l ≠ some n

end BlockEdit.CommandLine
