import BlockEdit.Path.Basic
import BlockEdit.Store.Error
import BlockEdit.Store.Resolve
import BlockEdit.Text.LowerCase

/-!
# Reading files

`readText` reads a whole file as text, and `load` reads one as a configuration: its extension, in
small letters, says in which format it is written. A file with another extension is not read at all.
-/

namespace BlockEdit.Store

/-- The bytes of the file that a path leads to. -/
def readBytes (s : Store) (path : String) : Except Fault ByteArray :=
  match s.find? path with
  | .error fault => .error fault
  | .ok (_, .file file) => .ok file.bytes
  | .ok _ => .error .isDirectory

/-- The text of the file that a path leads to. -/
def readText (s : Store) (path : Path) : Except StoreError String :=
  match s.readBytes path.text with
  | .error fault => .error (.io path.text fault)
  | .ok bytes =>
    match String.fromUTF8? bytes with
    | none => .error (.notText path.text)
    | some text => .ok text

/-- What the file that a path leads to says. -/
def load {α : Type} (s : Store) (reader : Config.Reader α) (path : Path) : Except StoreError α :=
  let extension := Text.lower (path.extension?.getD "")
  match Config.Format.ofExtension? extension with
  | none => .error (.unknownFormat extension)
  | some format =>
    match s.readText path with
    | .error e => .error e
    | .ok text =>
      match reader.read? format text with
      | none => .error (.badConfig format path.text)
      | some a => .ok a

end BlockEdit.Store
