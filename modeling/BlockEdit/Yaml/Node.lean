import BlockEdit.Yaml.Token

/-!
# YAML nodes

A YAML document is a tree of scalars, sequences and mappings. A node may have an anchor, and an
alias stands for the node with its anchor; so a node may stand inside of itself. Anchors are
numbered by how many different ones stand in front, also when an anchor is given again, and an alias
holds the number that its anchor has there. It stands for the last node of the document with that
number.

A text holds at most one document. `parse?` reads it; the outer `none` is a text that is none.
-/

namespace BlockEdit.Yaml

/-- A node of a document. -/
inductive Node where
  | scalar (tag : Option String) (plain : Bool) (text : String)
  | sequence (tag : Option String) (items : List Node)
  | mapping (tag : Option String) (entries : List (Node × Node))
  | alias (anchor : Nat)
  deriving Repr

/-- A document: its root, its nodes that have anchors, and for each number of an anchor the place of
a node among them, the last one first. -/
structure Document where
  root : Node
  anchored : Array Node
  places : List (Nat × Nat)

/-- The node that an alias stands for. -/
def Document.node? (d : Document) (anchor : Nat) : Option Node := do
  d.anchored[← d.places.lookup anchor]?

/-- What is known while the nodes of a document are read: what the handles of tags stand for, the
numbers of the anchors, their nodes as far as they are complete, and the places of these nodes. -/
structure Names where
  handles : List (String × String)
  anchors : List (String × Nat)
  anchored : Array Node
  places : List (Nat × Nat)

/-- A node without content. -/
def emptyNode : Node := .scalar none true ""

/-- The properties in front of a node. -/
structure Properties where
  anchor : Option String
  tag : Option String

namespace Names

/-- The names at the start of a document. -/
def start (handles : List (String × String)) : Names := ⟨handles, [], #[], []⟩

/-- The tag that a handle and what follows it stand for. -/
def resolve? (names : Names) (handle rest : String) : Option String :=
  if handle = "" then some rest else (names.handles.lookup handle).map (· ++ rest)

/-- The names with an anchor for a node that is still to be read, and the place of that node. -/
def reserve (names : Names) : Option String → Names × Option Nat
  | none => (names, none)
  | some name =>
    let number := names.anchors.length
    let place := names.anchored.size
    ({ names with
      anchors := (name, number) :: names.anchors.filter (·.1 ≠ name)
      anchored := names.anchored.push emptyNode
      places := (number, place) :: names.places }, some place)

/-- The names with a node that has been read at a reserved place. -/
def complete (names : Names) (place : Option Nat) (node : Node) : Names :=
  match place with
  | some i => { names with anchored := names.anchored.setIfInBounds i node }
  | none => names

end Names

/-- The properties in front of a node, each at most once and in any order. -/
def properties? (names : Names) : List Token → Option (Properties × List Token)
  | .anchor a :: .tag h r :: ts => do return (⟨some a, ← names.resolve? h r⟩, ts)
  | .tag h r :: .anchor a :: ts => do return (⟨some a, ← names.resolve? h r⟩, ts)
  | .anchor a :: ts => some (⟨some a, none⟩, ts)
  | .tag h r :: ts => do return (⟨none, ← names.resolve? h r⟩, ts)
  | ts => some (⟨none, none⟩, ts)

/-- The tag of a scalar that is written. A lone exclamation mark says nothing there. -/
def Properties.scalarTag (p : Properties) : Option String :=
  if p.tag = some "!" then none else p.tag

/-- The node of properties that stand in front of nothing. -/
def Properties.node? (p : Properties) : Option Node :=
  if p.anchor.isSome || p.tag.isSome then some (.scalar p.tag true "") else none

/-- What reading a part of a document gives: the part, the tokens behind it, and the names. -/
abbrev Parsed (α : Type) := α × List Token × Names

mutual

/-- A node. Indented collections may begin it if `block` says so, and a sequence whose dashes are
not indented if `indentless` does. -/
def node? : (fuel : Nat) → (block indentless : Bool) → Names → List Token → Option (Parsed Node)
  | 0, _, _, _, _ => none
  | fuel + 1, block, indentless, names, tokens =>
    match tokens with
    | .alias name :: ts => do return (.alias (← names.anchors.lookup name), ts, names)
    | _ => do
      let (properties, ts) ← properties? names tokens
      let tag := properties.tag
      let (names, place) := names.reserve properties.anchor
      let (node, ts, names) ←
        match ts with
        | .scalar plain text :: ts => some (.scalar properties.scalarTag plain text, ts, names)
        | .flowSequence :: ts => do
          let (items, ts, names) ← flowItems? fuel true names ts
          some (.sequence tag items, ts, names)
        | .flowMapping :: ts => do
          let (entries, ts, names) ← flowEntries? fuel true names ts
          some (.mapping tag entries, ts, names)
        | .blockEntry :: _ =>
          if indentless then do
            let (items, ts, names) ← dashItems? fuel names ts
            some (.sequence tag items, ts, names)
          else properties.node?.map fun node => (node, ts, names)
        | .blockSequence :: rest =>
          if block then do
            let (items, ts, names) ← blockItems? fuel names rest
            some (.sequence tag items, ts, names)
          else properties.node?.map fun node => (node, ts, names)
        | .blockMapping :: rest =>
          if block then do
            let (entries, ts, names) ← blockEntries? fuel names rest
            some (.mapping tag entries, ts, names)
          else properties.node?.map fun node => (node, ts, names)
        | ts => properties.node?.map fun node => (node, ts, names)
      return (node, ts, names.complete place node)

/-- The members of an indented sequence. -/
def blockItems? : (fuel : Nat) → Names → List Token → Option (Parsed (List Node))
  | 0, _, _ => none
  | fuel + 1, names, tokens =>
    match tokens with
    | .blockEnd :: ts => some ([], ts, names)
    | .blockEntry :: ts => do
      let (item, ts, names) ←
        match ts with
        | .blockEntry :: _ => some (emptyNode, ts, names)
        | .blockEnd :: _ => some (emptyNode, ts, names)
        | _ => node? fuel true false names ts
      let (items, ts, names) ← blockItems? fuel names ts
      return (item :: items, ts, names)
    | _ => none

/-- The members of a sequence whose dashes are not indented. -/
def dashItems? : (fuel : Nat) → Names → List Token → Option (Parsed (List Node))
  | 0, _, _ => none
  | fuel + 1, names, tokens =>
    match tokens with
    | .blockEntry :: ts => do
      let (item, ts, names) ←
        match ts with
        | .blockEntry :: _ => some (emptyNode, ts, names)
        | .key :: _ => some (emptyNode, ts, names)
        | .value :: _ => some (emptyNode, ts, names)
        | .blockEnd :: _ => some (emptyNode, ts, names)
        | _ => node? fuel true false names ts
      let (items, ts, names) ← dashItems? fuel names ts
      return (item :: items, ts, names)
    | ts => some ([], ts, names)

/-- A key or a value of an indented mapping behind its mark; it may be left out. -/
def blockPart? : (fuel : Nat) → Names → List Token → Option (Parsed Node)
  | 0, _, _ => none
  | fuel + 1, names, tokens =>
    match tokens with
    | .key :: _ => some (emptyNode, tokens, names)
    | .value :: _ => some (emptyNode, tokens, names)
    | .blockEnd :: _ => some (emptyNode, tokens, names)
    | _ => node? fuel true true names tokens

/-- The entries of an indented mapping. -/
def blockEntries? : (fuel : Nat) → Names → List Token → Option (Parsed (List (Node × Node)))
  | 0, _, _ => none
  | fuel + 1, names, tokens =>
    match tokens with
    | .blockEnd :: ts => some ([], ts, names)
    | .key :: ts => do
      let (key, ts, names) ← blockPart? fuel names ts
      let (v, ts, names) ←
        match ts with
        | .value :: ts => blockPart? fuel names ts
        | ts => some (emptyNode, ts, names)
      let (entries, ts, names) ← blockEntries? fuel names ts
      return ((key, v) :: entries, ts, names)
    | _ => none

/-- The members of a sequence in brackets. A key among them begins a mapping of one entry. -/
def flowItems? : (fuel : Nat) → (first : Bool) → Names → List Token → Option (Parsed (List Node))
  | 0, _, _, _ => none
  | fuel + 1, first, names, tokens =>
    match tokens with
    | .flowSequenceEnd :: ts => some ([], ts, names)
    | _ => do
      let ts ←
        if first then some tokens
        else
          match tokens with
          | .flowEntry :: ts => some ts
          | _ => none
      match ts with
      | .flowSequenceEnd :: ts => return ([], ts, names)
      | .key :: ts =>
        let (entry, ts, names) ← flowPair? fuel names ts
        let (items, ts, names) ← flowItems? fuel false names ts
        return (.mapping none [entry] :: items, ts, names)
      | ts =>
        let (item, ts, names) ← node? fuel false false names ts
        let (items, ts, names) ← flowItems? fuel false names ts
        return (item :: items, ts, names)

/-- The entry of a mapping in brackets that has no braces of its own, behind the mark of its key. A
mark that follows in the place of a key is passed over. -/
def flowPair? : (fuel : Nat) → Names → List Token → Option (Parsed (Node × Node))
  | 0, _, _ => none
  | fuel + 1, names, tokens => do
    let (key, ts, names) ←
      match tokens with
      | .value :: ts => some (emptyNode, ts, names)
      | .flowEntry :: ts => some (emptyNode, ts, names)
      | .flowSequenceEnd :: ts => some (emptyNode, ts, names)
      | ts => node? fuel false false names ts
    match ts with
    | .value :: ts =>
      match ts with
      | .flowEntry :: _ => return ((key, emptyNode), ts, names)
      | .flowSequenceEnd :: _ => return ((key, emptyNode), ts, names)
      | ts =>
        let (v, ts, names) ← node? fuel false false names ts
        return ((key, v), ts, names)
    | ts => return ((key, emptyNode), ts, names)

/-- The entries of a mapping in braces. -/
def flowEntries? : (fuel : Nat) → (first : Bool) → Names → List Token →
    Option (Parsed (List (Node × Node)))
  | 0, _, _, _ => none
  | fuel + 1, first, names, tokens =>
    match tokens with
    | .flowMappingEnd :: ts => some ([], ts, names)
    | _ => do
      let ts ←
        if first then some tokens
        else
          match tokens with
          | .flowEntry :: ts => some ts
          | _ => none
      match ts with
      | .flowMappingEnd :: ts => return ([], ts, names)
      | .key :: ts =>
        let (key, ts, names) ←
          match ts with
          | .value :: _ => some (emptyNode, ts, names)
          | .flowEntry :: _ => some (emptyNode, ts, names)
          | .flowMappingEnd :: _ => some (emptyNode, ts, names)
          | _ => node? fuel false false names ts
        let (v, ts, names) ←
          match ts with
          | .value :: ts =>
            match ts with
            | .flowEntry :: _ => some (emptyNode, ts, names)
            | .flowMappingEnd :: _ => some (emptyNode, ts, names)
            | _ => node? fuel false false names ts
          | ts => some (emptyNode, ts, names)
        let (entries, ts, names) ← flowEntries? fuel false names ts
        return ((key, v) :: entries, ts, names)
      | ts =>
        let (key, ts, names) ← node? fuel false false names ts
        let (entries, ts, names) ← flowEntries? fuel false names ts
        return ((key, emptyNode) :: entries, ts, names)

end

/-- What the handles stand for that no directive names. -/
def defaultHandles : List (String × String) := [("!", "!"), ("!!", "tag:yaml.org,2002:")]

/-- The directives in front of a document: its version is given at most once, and each handle is. -/
def directives? (versioned : Bool) (handles : List (String × String)) :
    List Token → Option (List (String × String) × List Token)
  | .version major minor :: ts =>
    if versioned || major != 1 || (minor != 1 && minor != 2) then none
    else directives? true handles ts
  | .tagLine handle stem :: ts =>
    if (handles.lookup handle).isSome then none
    else directives? versioned (handles ++ [(handle, stem)]) ts
  | ts => some (handles ++ defaultHandles, ts)

/-- A document behind the line that starts it, which may be empty. -/
def content? (fuel : Nat) (names : Names) (tokens : List Token) : Option (Parsed Node) :=
  match tokens with
  | [] => some (emptyNode, [], names)
  | .version .. :: _ => some (emptyNode, tokens, names)
  | .tagLine .. :: _ => some (emptyNode, tokens, names)
  | .documentStart :: _ => some (emptyNode, tokens, names)
  | .documentEnd :: _ => some (emptyNode, tokens, names)
  | _ => node? fuel true false names tokens

/-- The document that the tokens of a text are, if there is one. -/
def document? (tokens : List Token) : Option (Option Document) := do
  let fuel := 3 * tokens.length + 3
  let explicit (tokens : List Token) : Option (Parsed Node) := do
    let (handles, ts) ← directives? false [] tokens
    match ts with
    | .documentStart :: ts => content? fuel (.start handles) ts
    | _ => none
  let (root, rest, names) ←
    match tokens with
    | [] => return none
    | .version .. :: _ => explicit tokens
    | .tagLine .. :: _ => explicit tokens
    | .documentStart :: _ => explicit tokens
    | _ => node? fuel true false (.start defaultHandles) tokens
  if rest.all (· = .documentEnd) then return some ⟨root, names.anchored, names.places⟩ else none

/-- The document that a text holds, if there is one. -/
def parse? (text : String) : Option (Option Document) := do document? (← tokens? text)

end BlockEdit.Yaml
