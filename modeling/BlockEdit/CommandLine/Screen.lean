import BlockEdit.Batch.Json
import BlockEdit.CommandLine.Command
import BlockEdit.CommandLine.Style
import BlockEdit.Text.Lines

/-!
# What is shown

Each function gives what is printed about something, with its line ends. Of a difference, the lines
of the files' names are bold, inserted lines green, deleted ones red, and the ranges cyan; the first
characters of a line say what it is.
-/

namespace BlockEdit.CommandLine

/-- The name of the program. -/
def programName : String := "splice"

/-- The version of the program. -/
def programVersion : String := "0.1.0"

/-- The style of a line of a difference. -/
def diffStyle : List Char → Style
  | '+' :: '+' :: '+' :: _ => .bold
  | '-' :: '-' :: '-' :: _ => .bold
  | '+' :: _ => .green
  | '-' :: _ => .red
  | '@' :: '@' :: _ => .cyan
  | _ => .plain

/-- A difference. -/
def showDiff (colours : Bool) (diff : String) : String :=
  String.join ((Text.lines diff.toList).map fun line =>
    (diffStyle line).paint colours (String.ofList line) ++ "\n")

/-- The difference of an outcome that has one. -/
def showOutcomeDiff (colours : Bool) (outcome : FileOutcome) : String :=
  match outcome.diff with
  | some diff => showDiff colours diff
  | none => ""

/-- The outcome of edits on one file. -/
def showOutcome (colours dryRun : Bool) (outcome : FileOutcome) : String :=
  let (style, label, detail) :=
    match outcome.changed, dryRun with
    | false, _ => (Style.plain, "unchanged", "edits produced identical text")
    | true, true => (.boldYellow, "would edit", "dry run, file not written")
    | true, false => (.boldGreen, "edited", "written")
  showOutcomeDiff colours outcome ++ style.paint colours label ++ " " ++
    Style.yellow.paint colours outcome.path ++ " (" ++
    Style.cyan.paint colours outcome.summary.describe ++ ", " ++ detail ++ ")\n"

/-- A block that was found. -/
def showBlock (colours : Bool) (path : Path) (text : String) (span : Span) : String :=
  let (first, last) := span.lines text
  Style.boldBlue.paint colours "Block" ++ " " ++ Style.yellow.paint colours path.text ++
    " bytes " ++ Style.cyan.paint colours span.describe ++ s!" (lines {first}-{last})\n"

/-- A block that was found, as a JSON value. -/
def blockJson (path : Path) (text : String) (span : Span) : Json.Value :=
  let (first, last) := span.lines text
  .ofEntries [("end", .ofNat span.stop), ("end_line", .ofNat last), ("length", .ofNat span.size),
    ("path", .ofText path.text), ("start", .ofNat span.start), ("start_line", .ofNat first)]

/-- The width of the labels of jobs. -/
def labelWidth : Nat := 10

/-- The label of a job. -/
def showLabel (colours dryRun : Bool) (status : JobStatus) : String :=
  let (style, label) :=
    match status with
    | .applied => if dryRun then (Style.boldYellow, "WOULD EDIT") else (.boldGreen, "EDITED")
    | .unchanged => (.plain, "UNCHANGED")
    | .failed => (.boldRed, "FAILED")
    | .skipped => (.dimmed, "SKIPPED")
  style.paint colours (alignRight labelWidth label)

/-- The entry for a job. -/
def showJob (colours dryRun : Bool) (job : JobReport) : String :=
  let diff :=
    match job.outcome with
    | some outcome => showOutcomeDiff colours outcome
    | none => ""
  let summary :=
    match job.outcome with
    | some outcome => " (" ++ outcome.summary.describe ++ ")"
    | none => ""
  let error :=
    match job.error with
    | some e =>
      alignRight (labelWidth + 1) "" ++ Style.red.paint colours "!" ++ " " ++ e ++ "\n"
    | none => ""
  diff ++ showLabel colours dryRun job.status ++ " " ++ Style.yellow.paint colours job.path ++
    Style.cyan.paint colours summary ++ "\n" ++ error

/-- The numbers of jobs of each kind. -/
def showCounts (colours : Bool) (report : BatchReport) : String :=
  let applied := report.count .applied
  if report.success then
    Style.boldGreen.paint colours "OK" ++
      s!" {applied} job(s) applied, {report.count .unchanged} unchanged\n"
  else
    Style.boldRed.paint colours "Errors" ++
      s!" {applied} applied, {report.count .failed} failed, {report.count .skipped} skipped\n"

/-- A report. -/
def showReport (colours : Bool) (report : BatchReport) : String :=
  String.join (report.jobs.map (showJob colours report.dryRun)) ++ "\n" ++
    showCounts colours report

/-- A failure of the command. -/
def showError (colours : Bool) (message : String) : String :=
  Style.boldRed.paint colours "error" ++ ": " ++ message ++ "\n"

/-- What is shown when there is no command. -/
def showHint (colours : Bool) : String :=
  Style.boldGreen.paint colours programName ++
    " structural edits for generated UI sources\n\nRun " ++
    Style.cyan.paint colours (programName ++ " --help") ++ " for available commands.\n"

/-- The version. -/
def showVersion : String := programName ++ " " ++ programVersion ++ "\n"

/-- The words for the commands. -/
def showCompletions : String :=
  String.join (CommandName.all.map fun name => name.word ++ "\n")

/-- The commands with their purposes. -/
def showHelp : String :=
  "Usage: " ++ programName ++ " [OPTIONS] [COMMAND]\n\nCommands:\n" ++
    String.join (CommandName.all.map fun name =>
      "  " ++ name.word ++ String.ofList (List.replicate (15 - name.word.length) ' ') ++
        name.purpose ++ "\n")

end BlockEdit.CommandLine
