import DataSchema.Yaml.Token

/-!
Nodes of a YAML document.

A document is one node: a scalar, a sequence, or a mapping whose keys are nodes too. An alias is replaced
by the node that its anchor names; an anchor names its node once it is complete, so no node holds itself.
A text holds one document at most, and an empty one stands for an empty plain scalar.
-/

namespace DataSchema.Yaml

inductive Node where
  | scalar (tag : Option String) (text : String) (style : Style)
  | sequence (tag : Option String) (items : List Node)
  | mapping (tag : Option String) (entries : List (Node × Node))

namespace Node

def empty : Node := .scalar none "" .plain

/-! ### Reading from tokens -/

/-- What a document has declared so far: the starts of tags by their handles, and the nodes by their
anchors, without a node where it is not complete. -/
structure Names where
  tagStarts : List (String × String) := [("!", "!"), ("!!", "tag:yaml.org,2002:")]
  anchors : List (String × Option Node) := []

/-- Reads from the tokens that are left. -/
abbrev Reader := StateT (List Token × Names) Option

def fail {α : Type} : Reader α := fun _ => none

def peek : Reader (Option Token) := return (← get).1.head?

def skip : Reader Unit := modify fun (ts, names) => (ts.drop 1, names)

/-- Skips the token if it is the next one. -/
def skipIf (t : Token) : Reader Bool := do
  if (← peek) == some t then
    skip
    return true
  else return false

def nextIsAny (ts : List Token) : Reader Bool := return (← peek).any ts.contains

def setAnchor (name : Option String) (node : Option Node) : Reader Unit :=
  match name with
  | none => return
  | some name => modify fun (ts, names) => (ts, { names with anchors := (name, node) :: names.anchors })

def anchored (name : String) : Reader Node := do
  match (← get).2.anchors.lookup name with
  | some (some node) => return node
  | _ => fail

/-- The tag of a handle and a suffix. -/
def fullTag (handle suffix : String) : Reader String := do
  if handle == "" then return suffix
  else
    match (← get).2.tagStarts.lookup handle with
    | some start => return start ++ suffix
    | none => fail

/-- The anchor and the tag before a node, in any order. -/
def properties : Reader (Option String × Option String) := do
  match ← peek with
  | some (.anchor name) =>
    skip
    match ← peek with
    | some (.tag handle suffix) =>
      skip
      return (some name, some (← fullTag handle suffix))
    | _ => return (some name, none)
  | some (.tag handle suffix) =>
    skip
    let tag ← fullTag handle suffix
    match ← peek with
    | some (.anchor name) =>
      skip
      return (some name, some tag)
    | _ => return (none, some tag)
  | _ => return (none, none)

/-- A node, unless one of the tokens comes next. -/
def orEmpty (ends : List Token) (node : Reader Node) : Reader Node := do
  if ← nextIsAny ends then return empty else node

mutual

/-- Reads a node. `block` says whether it may be a block, and `bare` whether entries without indentation of
their own are a sequence. Every second step takes a token, so twice their number bounds the steps. -/
def read : Nat → Bool → Bool → Reader Node
  | 0, _, _ => fail
  | steps + 1, block, bare => do
    if let some (.alias name) ← peek then
      skip
      anchored name
    else
      let (anchor, tag) ← properties
      setAnchor anchor none
      let node ← readContent steps block bare tag (anchor.isSome || tag.isSome)
      setAnchor anchor (some node)
      return node

/-- What comes after the properties; after some, it may be nothing. -/
def readContent : Nat → Bool → Bool → Option String → Bool → Reader Node
  | 0, _, _, _, _ => fail
  | steps + 1, block, bare, tag, mayBeEmpty => do
    match ← peek with
    | some (.scalar text style) =>
      skip
      return .scalar tag text style
    | some .flowSequence =>
      skip
      return .sequence tag (← flowItems steps true)
    | some .flowMapping =>
      skip
      return .mapping tag (← flowEntries steps true)
    | some .blockEntry =>
      if bare then return .sequence tag (← bareItems steps)
      else if mayBeEmpty then return .scalar tag "" .plain
      else fail
    | some .blockSequence =>
      if block then
        skip
        return .sequence tag (← blockItems steps)
      else if mayBeEmpty then return .scalar tag "" .plain
      else fail
    | some .blockMapping =>
      if block then
        skip
        return .mapping tag (← blockEntries steps)
      else if mayBeEmpty then return .scalar tag "" .plain
      else fail
    | _ => if mayBeEmpty then return .scalar tag "" .plain else fail

def blockItems : Nat → Reader (List Node)
  | 0 => fail
  | steps + 1 => do
    if ← skipIf .blockEnd then return []
    else if ← skipIf .blockEntry then
      let item ← orEmpty [.blockEntry, .blockEnd] (read steps true false)
      return item :: (← blockItems steps)
    else fail

def bareItems : Nat → Reader (List Node)
  | 0 => fail
  | steps + 1 => do
    if ← skipIf .blockEntry then
      let item ← orEmpty [.blockEntry, .key, .value, .blockEnd] (read steps true false)
      return item :: (← bareItems steps)
    else return []

def blockEntries : Nat → Reader (List (Node × Node))
  | 0 => fail
  | steps + 1 => do
    if ← skipIf .blockEnd then return []
    else if ← skipIf .key then
      let key ← orEmpty [.key, .value, .blockEnd] (read steps true true)
      let value ←
        if ← skipIf .value then orEmpty [.key, .value, .blockEnd] (read steps true true) else pure empty
      return (key, value) :: (← blockEntries steps)
    else fail

/-- The items of a flow sequence; one with a key is a mapping of one entry. -/
def flowItems : Nat → Bool → Reader (List Node)
  | 0, _ => fail
  | steps + 1, first => do
    if ← skipIf .flowSequenceEnd then return []
    else if first || (← skipIf .flowEntry) then
      if ← skipIf .flowSequenceEnd then return []
      else if ← skipIf .key then
        let key ← orEmpty [.value, .flowEntry, .flowSequenceEnd] (read steps false false)
        let value ←
          if ← skipIf .value then orEmpty [.flowEntry, .flowSequenceEnd] (read steps false false)
          else pure empty
        return .mapping none [(key, value)] :: (← flowItems steps false)
      else
        let item ← read steps false false
        return item :: (← flowItems steps false)
    else fail

/-- The entries of a flow mapping; a node without a colon is a key with nothing under it. -/
def flowEntries : Nat → Bool → Reader (List (Node × Node))
  | 0, _ => fail
  | steps + 1, first => do
    if ← skipIf .flowMappingEnd then return []
    else if first || (← skipIf .flowEntry) then
      if ← skipIf .flowMappingEnd then return []
      else if ← skipIf .key then
        let key ← orEmpty [.value, .flowEntry, .flowMappingEnd] (read steps false false)
        let value ←
          if ← skipIf .value then orEmpty [.flowEntry, .flowMappingEnd] (read steps false false)
          else pure empty
        return (key, value) :: (← flowEntries steps false)
      else
        let key ← read steps false false
        return (key, empty) :: (← flowEntries steps false)
    else fail

end

/-! ### Documents -/

/-- The directives before a document: the version at most once, and each handle once. -/
def directives (version : Bool) (handles : List String) (names : Names) :
    List Token → Option (Names × List Token)
  | .version :: rest => if version then none else directives true handles names rest
  | .tagDirective handle start :: rest =>
    if handles.contains handle then none
    else
      directives version (handle :: handles)
        { names with tagStarts := (handle, start) :: names.tagStarts } rest
  | rest => some (names, rest)

/-- Reads one node, and answers the tokens after it. -/
def readOne (names : Names) (ts : List Token) : Option (Node × List Token) :=
  ((read (4 * ts.length + 4) true false).run (ts, names)).map fun (node, rest, _) => (node, rest)

/-- The document after its opening mark: nothing if another mark follows. -/
def readMarked (names : Names) : List Token → Option (Node × List Token)
  | .documentStart :: rest =>
    match rest.head? with
    | none => some (empty, [])
    | some .documentEnd | some .documentStart | some .version | some (.tagDirective _ _) =>
      some (empty, rest)
    | _ => readOne names rest
  | _ => none

def readDocument (ts : List Token) : Option (Node × List Token) :=
  match ts.head? with
  | none => some (empty, [])
  | some .documentStart | some .version | some (.tagDirective _ _) =>
    (directives false [] {} ts).bind fun (names, rest) => readMarked names rest
  | _ => readOne {} ts

/-- The one document of a list of tokens. -/
def ofTokens? (ts : List Token) : Option Node :=
  match readDocument ts with
  | some (node, rest) => if rest.all (· == .documentEnd) then some node else none
  | none => none

def ofText? (text : String) : Option Node := (tokens? text).bind ofTokens?

end Node

end DataSchema.Yaml
