import BlockEdit.CommandLine.Switch

/-!
# Reading arguments

Arguments are read from left to right. One that begins with a dash, unless it is the dash alone,
holds switches: two dashes and a name, with the value of the switch behind an equals sign or in the
next argument; or one dash and letters, of which the first one that takes a value is followed by it,
by an equals sign and it, or has it in the next argument. A next argument that holds switches itself
is no value. Two dashes alone end the switches. All else are operands. No switch may be given twice.

Asking for help or for the version stops the reading at that place, and so does an argument that
makes no sense.
-/

namespace BlockEdit.CommandLine

/-- Why no more arguments are read. -/
inductive Stop where
  | help
  | version
  | misuse
  deriving DecidableEq, Repr

/-- What may be given: the switches, whether the version can be asked for, and the kinds of the
operands. -/
structure Usage where
  switches : List Switch
  versioned : Bool
  operands : Nat

/-- What has been given: the switches with their values, and the operands. -/
structure Given where
  switches : List (String × Argument)
  operands : List Argument

/-- Nothing has been given. -/
def Given.nothing : Given := ⟨[], []⟩

/-- The switch has been given. -/
def Given.has (g : Given) (name : String) : Bool := (g.switches.lookup name).isSome

/-- The value that has been given for a switch. -/
def Given.value? (g : Given) (name : String) : Option Argument := g.switches.lookup name

/-- The text that has been given for a switch. -/
def Given.text? (g : Given) (name : String) : Option String := (g.value? name).bind Argument.text?

/-- A dash. -/
def dash : UInt8 := 0x2d

/-- An equals sign. -/
def equalsSign : UInt8 := 0x3d

/-- The name of the flag that asks for help. -/
def helpName : String := "help"

/-- The name of the flag that asks for the version. -/
def versionName : String := "version"

namespace Usage

/-- All switches, those that stop the reading included. -/
def allSwitches (u : Usage) : List Switch :=
  u.switches ++ [(Switch.flag helpName).withLetter 'h'] ++
    if u.versioned then [(Switch.flag versionName).withLetter 'V'] else []

/-- The switch with a name. -/
def named? (u : Usage) (name : String) : Option Switch :=
  u.allSwitches.find? (·.name = name)

/-- The switch with a letter. -/
def lettered? (u : Usage) (c : Char) : Option Switch :=
  u.allSwitches.find? (·.letter = some c)

end Usage

/-- A flag has been given. -/
def Given.addFlag (g : Given) (s : Switch) : Except Stop Given :=
  if s.name = helpName then .error .help
  else if s.name = versionName then .error .version
  else if g.has s.name then .error .misuse
  else .ok { g with switches := (s.name, []) :: g.switches }

/-- A switch has been given with a value of its kind. -/
def Given.addValue (g : Given) (s : Switch) (kind : ValueKind) (v : Argument) :
    Except Stop Given :=
  if g.has s.name || !kind.admits v then .error .misuse
  else .ok { g with switches := (s.name, v) :: g.switches }

/-- An operand has been given. -/
def Given.addOperand (g : Given) (u : Usage) (a : Argument) : Except Stop Given :=
  if u.operands ≤ g.operands.length || a.isEmpty then .error .misuse
  else .ok { g with operands := g.operands ++ [a] }

/-- The argument holds switches or ends them. -/
def Argument.isDashed (a : Argument) : Bool := a.head? = some dash && 1 < a.length

/-- What switches in an argument have led to: they are read, or one waits for its value in the next
argument. -/
inductive Progress where
  | read (g : Given)
  | waiting (g : Given) (s : Switch) (kind : ValueKind)

namespace Usage

/-- A switch that is written with its name, without the dashes. -/
def readNamed (u : Usage) (g : Given) (a : Argument) : Except Stop Progress :=
  let name := a.takeWhile (· ≠ equalsSign)
  match Argument.text? name |>.bind u.named? with
  | none => .error .misuse
  | some s =>
    match s.value, a.dropWhile (· ≠ equalsSign) with
    | none, [] => (g.addFlag s).map .read
    | none, _ :: _ => .error .misuse
    | some kind, [] => .ok (.waiting g s kind)
    | some kind, _ :: v => (g.addValue s kind v).map .read

/-- The value that is written behind a letter, without an equals sign in front. -/
def attachedValue (a : Argument) : Argument := if a.head? = some equalsSign then a.drop 1 else a

/-- Switches that are written with their letters, without the dash. -/
def readLettered (u : Usage) (g : Given) : Argument → Except Stop Progress
  | [] => .ok (.read g)
  | b :: rest =>
    match u.lettered? (Char.ofNat b.toNat) with
    | none => .error .misuse
    | some s =>
      match s.value, rest with
      | none, rest =>
        match g.addFlag s with
        | .error stop => .error stop
        | .ok g => u.readLettered g rest
      | some kind, [] => .ok (.waiting g s kind)
      | some kind, rest => (g.addValue s kind (attachedValue rest)).map .read

/-- The switches in an argument that begins with a dash. -/
def readDashed (u : Usage) (g : Given) (a : Argument) : Except Stop Progress :=
  match a.drop 1 with
  | b :: rest => if b = dash then u.readNamed g rest else u.readLettered g (b :: rest)
  | [] => .error .misuse

/-- Operands. -/
def readOperands (u : Usage) (g : Given) : List Argument → Except Stop Given
  | [] => .ok g
  | a :: rest =>
    match g.addOperand u a with
    | .error stop => .error stop
    | .ok g => u.readOperands g rest

mutual

/-- Arguments, as far as they are for this usage: those from the first operand on are left if there
are to be none. -/
def read (u : Usage) (g : Given) : List Argument → Except Stop (Given × List Argument)
  | [] => .ok (g, [])
  | a :: rest =>
    if a = [dash, dash] then (u.readOperands g rest).map fun g => (g, [])
    else if a.isDashed then
      match u.readDashed g a with
      | .error stop => .error stop
      | .ok (.read g) => u.read g rest
      | .ok (.waiting g s kind) => u.readValue g s kind rest
    else if u.operands = 0 then .ok (g, a :: rest)
    else
      match g.addOperand u a with
      | .error stop => .error stop
      | .ok g => u.read g rest

/-- The value of a switch, and the arguments behind it. -/
def readValue (u : Usage) (g : Given) (s : Switch) (kind : ValueKind) :
    List Argument → Except Stop (Given × List Argument)
  | [] => .error .misuse
  | v :: rest =>
    if v.isDashed then .error .misuse
    else
      match g.addValue s kind v with
      | .error stop => .error stop
      | .ok g => u.read g rest

end

end Usage

end BlockEdit.CommandLine
