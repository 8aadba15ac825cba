import BlockEdit.CommandLine.Usage
import BlockEdit.Edit.Basic
import BlockEdit.Manifest.Basic

/-!
# Commands

What the arguments ask for. The commands and the switches of each are listed in tables, from which
the overview of the commands is written as well. `Request.ofArguments` reads the arguments; the
requests that make no sense are `Stop.misuse`.
-/

namespace BlockEdit.CommandLine

/-- Which match of which marker is meant. -/
structure Selector where
  marker : String
  occurrence : Nat
  deriving DecidableEq, Repr

/-- A text that is given, or the file that holds it. -/
inductive TextSource where
  | inline (text : String)
  | file (path : Argument)
  deriving DecidableEq, Repr

/-- A command with all that belongs to it. -/
inductive Command where
  | insert (file : Argument) (selector : Selector) (content : TextSource) (placement : Placement)
    (dryRun : Bool)
  | replaceBlock (file : Argument) (selector : Selector) (tokens : TokenPair)
    (replacement : TextSource) (dryRun : Bool)
  | locate (file : Argument) (selector : Selector) (tokens : TokenPair) (json : Bool)
  | apply (manifest : Argument) (policy : Option FailurePolicy) (dryRun json : Bool)
  | completions
  deriving DecidableEq, Repr

/-- What is asked for. -/
inductive Request where
  | hint
  | help
  | version
  | command (c : Command)
  deriving DecidableEq, Repr

/-- The names of the commands. -/
inductive CommandName where
  | insert
  | replaceBlock
  | locate
  | apply
  | completions
  | help
  deriving DecidableEq, Repr

namespace CommandName

/-- A command as it is written. -/
def word : CommandName → String
  | insert => "insert"
  | replaceBlock => "replace-block"
  | locate => "locate"
  | apply => "apply"
  | completions => "completions"
  | help => "help"

/-- What a command does, in a few words. -/
def purpose : CommandName → String
  | insert => "Insert content next to a marker"
  | replaceBlock => "Replace the balanced block that starts at a marker"
  | locate => "Show where the block starting at a marker ends"
  | apply => "Run every job in a manifest (TOML, JSON or YAML)"
  | completions => "List the words that a shell can complete"
  | help => "Print this overview"

/-- All commands. -/
def all : List CommandName := [insert, replaceBlock, locate, apply, completions, help]

/-- The command with a name. -/
def ofArgument? (a : Argument) : Option CommandName :=
  a.text?.bind fun s => all.find? (·.word = s)

end CommandName

/-- The flag that may stand in front of the command and behind it. -/
def verbose : Switch := (Switch.flag "verbose").withLetter 'v'

/-- The switches that say which match of which marker is meant. -/
def selectorSwitches : List Switch :=
  [(Switch.taking .text "marker").withLetter 'm',
    (Switch.taking .number "occurrence").withLetter 'n']

/-- The switches that say what the tokens of a block are. -/
def tokenSwitches : List Switch :=
  [.taking .text "element", .taking .text "open", .taking .text "close"]

/-- The switches of each command. -/
def CommandName.switches : CommandName → List Switch
  | insert =>
    selectorSwitches ++
      [.taking .text "content", .taking .path "content-file", .flag "after", .flag "dry-run"]
  | replaceBlock =>
    selectorSwitches ++ tokenSwitches ++
      [.taking .text "replacement", .taking .path "replacement-file", .flag "dry-run"]
  | locate => selectorSwitches ++ tokenSwitches ++ [.flag "json"]
  | apply => [.flag "keep-going", .flag "fail-fast", .flag "dry-run", .flag "json"]
  | completions => []
  | help => []

/-- What may be given in front of a command. -/
def mainUsage : Usage := ⟨[verbose], true, 0⟩

/-- What may be given behind a command, which has one operand. -/
def CommandName.usage (name : CommandName) : Usage := ⟨verbose :: name.switches, false, 1⟩

namespace Given

/-- The operand that has to be given. -/
def operand? (g : Given) : Option Argument := g.operands.head?

/-- The match of the marker, which has to be given; it is the first one if nothing else is said. -/
def selector? (g : Given) : Option Selector := do
  let marker ← g.text? "marker"
  return ⟨marker, ((g.text? "occurrence").bind number?).getD Edit.defaultOccurrence⟩

/-- The tokens: those of an element or a pair of them, but not both. -/
def tokens? (g : Given) : Option TokenPair :=
  match g.text? "element", g.text? "open", g.text? "close" with
  | some name, none, none => some (.element name)
  | none, some opening, some closing => some ⟨opening, closing⟩
  | none, none, none => some Edit.defaultTokens
  | _, _, _ => none

/-- The text that is given by one of two switches, but not both. -/
def source? (g : Given) (inline file : String) : Option TextSource :=
  match g.text? inline, g.value? file with
  | some text, none => some (.inline text)
  | none, some path => some (.file path)
  | _, _ => none

/-- The policy, if one is given; not both can be. -/
def policy? (g : Given) : Option (Option FailurePolicy) :=
  match g.has "keep-going", g.has "fail-fast" with
  | true, true => none
  | true, false => some (some .keepGoing)
  | false, true => some (some .failFast)
  | false, false => some none

/-- The command with what has been given, if that is all that it needs. -/
def command? (g : Given) : CommandName → Option Command
  | .insert => do
    return .insert (← g.operand?) (← g.selector?) (← g.source? "content" "content-file")
      (if g.has "after" then .after else .before) (g.has "dry-run")
  | .replaceBlock => do
    return .replaceBlock (← g.operand?) (← g.selector?) (← g.tokens?)
      (← g.source? "replacement" "replacement-file") (g.has "dry-run")
  | .locate => do return .locate (← g.operand?) (← g.selector?) (← g.tokens?) (g.has "json")
  | .apply => do return .apply (← g.operand?) (← g.policy?) (g.has "dry-run") (g.has "json")
  | .completions => do
    let shell ← (← g.operand?).text?
    if ["bash", "elvish", "fish", "powershell", "zsh"].contains shell then return .completions
    else none
  | .help => none

end Given

namespace Request

/-- A reading that was stopped by a request, or by an argument that makes no sense. -/
def ofStop : Stop → Except Stop Request
  | .help => .ok .help
  | .version => .ok .version
  | .misuse => .error .misuse

/-- Help on everything, or on one command. -/
def ofHelpArguments : List Argument → Except Stop Request
  | [] => .ok .help
  | [a] => if (CommandName.ofArgument? a).isSome then .ok .help else .error .misuse
  | _ => .error .misuse

/-- The request of a command. -/
def ofCommandArguments (name : CommandName) (arguments : List Argument) : Except Stop Request :=
  match name.usage.read .nothing arguments with
  | .error stop => ofStop stop
  | .ok (g, _) =>
    match g.command? name with
    | some c => .ok (.command c)
    | none => .error .misuse

/-- The request of a command line. -/
def ofArguments (arguments : List Argument) : Except Stop Request :=
  match mainUsage.read .nothing arguments with
  | .error stop => ofStop stop
  | .ok (_, []) => .ok .hint
  | .ok (_, a :: rest) =>
    match CommandName.ofArgument? a with
    | none => .error .misuse
    | some .help => ofHelpArguments rest
    | some name => ofCommandArguments name rest

end Request

end BlockEdit.CommandLine
