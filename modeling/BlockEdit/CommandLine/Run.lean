import BlockEdit.Batch.Run
import BlockEdit.CommandLine.Screen

/-!
# Running commands

`run` carries out what the arguments ask for on a store, and gives the store afterwards, what is
printed, and the exit code: zero for success, one for a failure, and two for arguments that make no
sense.
-/

namespace BlockEdit.CommandLine

/-- What the program leaves behind for the caller. -/
structure Output where
  exitCode : UInt8
  stdout : String
  stderr : String
  deriving DecidableEq, Repr

/-- How the program is run: by which process, and with colours or without. -/
structure Settings where
  process : Nat
  colours : Bool

/-- A failed command: one of the failures of the library, or jobs that failed. -/
inductive Failure where
  | document (e : DocumentError)
  | batch (e : BatchError)
  | jobs (failed total : Nat)
  deriving DecidableEq, Repr

/-- The sentence about a failed command. -/
def Failure.message : Failure → String
  | document e => e.message
  | batch e => e.message
  | jobs failed total => s!"{failed} of {total} job(s) failed"

/-- The output of a command that printed `stdout`, and failed then if there is a failure. -/
def Output.of (colours : Bool) (stdout : String) (failure : Option Failure) : Output :=
  match failure with
  | none => ⟨0, stdout, ""⟩
  | some f => ⟨1, stdout, showError colours f.message⟩

/-- The path that an argument is. -/
def pathOf? (a : Argument) : Except StoreError Path :=
  match Path.ofBytes? a.toByteArray with
  | some path => .ok path
  | none => .error (.pathNotText (Text.ofBytesLossy a.toByteArray))

/-- The text of the file that an argument names. -/
def readFile (s : Store) (a : Argument) : Except StoreError (Path × String) :=
  match pathOf? a with
  | .error e => .error e
  | .ok path => (s.readText path).map fun text => (path, text)

/-- The text that a source gives. -/
def TextSource.read (s : Store) : TextSource → Except StoreError String
  | inline text => .ok text
  | file path => (readFile s path).map (·.2)

/-- Carries out one edit on one file. -/
def runEdit (settings : Settings) (s : Store) (file : Argument) (edit : Edit) (dryRun : Bool) :
    Store × Except BatchError FileOutcome :=
  match pathOf? file with
  | .error e => (s, .error (.store e))
  | .ok path => s.editFile ⟨settings.process, dryRun⟩ path [edit]

/-- Carries out one edit, which needs the text of a source, on one file. -/
def runSourcedEdit (settings : Settings) (s : Store) (file : Argument) (source : TextSource)
    (edit : String → Edit) (dryRun : Bool) : Store × Except BatchError FileOutcome :=
  match source.read s with
  | .error e => (s, .error (.store e))
  | .ok text => runEdit settings s file (edit text) dryRun

/-- The edit of an insertion. -/
def insertEdit (selector : Selector) (placement : Placement) (content : String) : Edit :=
  .insert selector.marker selector.occurrence placement content

/-- The edit of a replacement. -/
def replaceEdit (selector : Selector) (tokens : TokenPair) (replacement : String) : Edit :=
  .replaceBlock selector.marker selector.occurrence tokens replacement

/-- What is printed about the outcome of an edit. -/
def outputOfEdit (settings : Settings) (dryRun : Bool) :
    Except BatchError FileOutcome → Output
  | .error e => .of settings.colours "" (some (.batch e))
  | .ok outcome => .of settings.colours (showOutcome settings.colours dryRun outcome) none

/-- The block that starts at a match of a marker in a file. -/
def findBlock (s : Store) (file : Argument) (selector : Selector) (tokens : TokenPair) :
    Except Failure (Path × String × Span) :=
  match readFile s file with
  | .error e => .error (.batch (.store e))
  | .ok (path, text) =>
    match Block.locateNth text selector.marker selector.occurrence tokens with
    | .error e => .error (.document e)
    | .ok span => .ok (path, text, span)

/-- What is printed about a block. -/
def outputOfBlock (settings : Settings) (json : Bool) :
    Except Failure (Path × String × Span) → Output
  | .error f => .of settings.colours "" (some f)
  | .ok (path, text, span) =>
    if json then .of settings.colours ((blockJson path text span).writePretty ++ "\n") none
    else .of settings.colours (showBlock settings.colours path text span) none

/-- The batch for the manifest at a path: jobs are seen from the directory of the manifest. -/
def batchFor (settings : Settings) (path : Path) (policy : FailurePolicy) (dryRun : Bool) : Batch :=
  ⟨path.parent?.getD (.ofString "."), policy, ⟨settings.process, dryRun⟩⟩

/-- Runs the jobs of a manifest, under its own policy if no other one is given. -/
def runApply (settings : Settings) (s : Store) (manifest : Argument)
    (policy : Option FailurePolicy) (dryRun : Bool) : Store × Except BatchError BatchReport :=
  match pathOf? manifest with
  | .error e => (s, .error (.store e))
  | .ok path =>
    match s.loadManifest path with
    | .error e => (s, .error e)
    | .ok m => (batchFor settings path (policy.getD m.policy) dryRun).runManifest s m

/-- What is printed about a batch. -/
def outputOfBatch (settings : Settings) (json : Bool) : Except BatchError BatchReport → Output
  | .error e => .of settings.colours "" (some (.batch e))
  | .ok report =>
    let shown :=
      if json then report.toJson.writePretty ++ "\n" else showReport settings.colours report
    let failure :=
      if report.success then none else some (.jobs (report.count .failed) report.jobs.length)
    .of settings.colours shown failure

/-- Carries out a command. -/
def runCommand (settings : Settings) (s : Store) : Command → Store × Output
  | .insert file selector content placement dryRun =>
    match runSourcedEdit settings s file content (insertEdit selector placement) dryRun with
    | (s, result) => (s, outputOfEdit settings dryRun result)
  | .replaceBlock file selector tokens replacement dryRun =>
    match runSourcedEdit settings s file replacement (replaceEdit selector tokens) dryRun with
    | (s, result) => (s, outputOfEdit settings dryRun result)
  | .locate file selector tokens json =>
    (s, outputOfBlock settings json (findBlock s file selector tokens))
  | .apply manifest policy dryRun json =>
    match runApply settings s manifest policy dryRun with
    | (s, result) => (s, outputOfBatch settings json result)
  | .completions => (s, .of settings.colours showCompletions none)

/-- Carries out a request. -/
def runRequest (settings : Settings) (s : Store) : Request → Store × Output
  | .hint => (s, .of settings.colours (showHint settings.colours) none)
  | .help => (s, .of settings.colours showHelp none)
  | .version => (s, .of settings.colours showVersion none)
  | .command c => runCommand settings s c

/-- Carries out what the arguments ask for. -/
def run (settings : Settings) (s : Store) (arguments : List Argument) : Store × Output :=
  match Request.ofArguments arguments with
  | .ok request => runRequest settings s request
  | .error _ => (s, ⟨2, "", showError settings.colours "the arguments make no sense; try --help"⟩)

end BlockEdit.CommandLine
