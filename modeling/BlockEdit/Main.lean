import BlockEdit.CommandLine.Files

/-!
# The program

The program brings the files of its command into a store, runs the command on the store, and carries
the changes of the store out on the files. A changed file is written beside its target and then
moved into its place, while the lock on the file next to it is held.
-/

namespace BlockEdit.Program

open CommandLine

/-- The store with a node, and directories above it where nothing is known yet. -/
def putBelow (s : Store) (l : Location) (n : FileNode) : Store :=
  let above := Store.ancestors l.dropLast
  (above.foldl (fun s l => if (s.node? l).isSome then s else s.put l .directory) s).put l n

/-- The location of a path as it is spelled. -/
def spelled (here path : String) : Location :=
  let absolute := if path.startsWith "/" then path else here ++ "/" ++ path
  Store.names (Path.ofString absolute).text.toList

/-- The store with what stands where a path leads, if anything does. -/
def bring (here : String) (s : Store) (path : String) : IO Store := do
  try
    let real ← IO.FS.realPath path
    let l := Store.names real.toString.toList
    let node : FileNode ←
      match (← real.metadata).type with
      | .dir => pure .directory
      | _ => pure (.file { File.empty with bytes := ← IO.FS.readBinFile real })
    let s := if l = [] then s else putBelow s l node
    if spelled here path = l then return s
    else return putBelow s (spelled here path) (.link real.toString)
  catch _ => return s

/-- The store with everything on the way to the given paths, and with the files of their locks. -/
def bringAll (here : String) (s : Store) (paths : List Path) : IO Store := do
  let mut s := s
  for path in paths do
    for above in path.ancestors.reverse do
      s ← bring here s above.text
    match s.canonical? path.text with
    | .ok target => s ← bring here s (target ++ ".lock")
    | .error _ => s ← bring here s (path.text ++ ".lock")
  return s

/-- Makes a file hold the given bytes. -/
def replaceFile (path : String) (bytes : ByteArray) : IO Unit := do
  let lock ← IO.FS.Handle.mk (path ++ ".lock") .append
  lock.lock
  let temporary := (Replacement.mk path bytes none 0).temporaryPath
  IO.FS.writeBinFile temporary bytes
  IO.FS.rename temporary path
  lock.unlock

/-- Carries one change of a store out. -/
def carryOut (before : Store) (l : Location) (n : FileNode) : IO Unit := do
  let path := Store.pathOf l
  match n with
  | .directory => IO.FS.createDirAll path
  | .link _ => return
  | .file file =>
    if file.bytes.isEmpty && (before.node? l).isNone then
      discard (IO.FS.Handle.mk path .append)
    else replaceFile path file.bytes

/-- Runs the program, and gives its exit code. -/
def run (arguments : List String) : IO UInt32 := do
  let arguments := arguments.map Argument.ofText
  let here := (← IO.currentDir).toString
  let nothing := Store.empty (Store.names here.toList)
  -- the targets of a manifest are known only when the manifest is there
  let named ← bringAll here nothing (filesOf nothing arguments)
  let before ← bringAll here named (filesOf named arguments)
  let colours ← (← IO.getStdout).isTty
  let (after, output) := CommandLine.run ⟨0, colours⟩ before arguments
  for (l, n) in changes before after do
    carryOut before l n
  IO.print output.stdout
  IO.eprint output.stderr
  return output.exitCode.toUInt32

end BlockEdit.Program

/-- The program `splice`. -/
def main (arguments : List String) : IO UInt32 := BlockEdit.Program.run arguments
