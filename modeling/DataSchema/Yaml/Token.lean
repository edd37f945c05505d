import DataSchema.Yaml.Scalar

/-!
Tokens of a YAML text.

Indentation becomes tokens that open and close blocks. A key of one line is known only by the colon after
it, so the place where a key could have started is kept until a colon comes or it is too far away, and
the tokens that open a mapping are put there afterwards.
-/

namespace DataSchema.Yaml

/-- How a scalar is written: plain, quoted or folded, or as a literal block. -/
inductive Style where
  | plain | quoted | literal
  deriving DecidableEq

inductive Token where
  | version
  | tagDirective (handle tagStart : String)
  | documentStart
  | documentEnd
  | blockSequence
  | blockMapping
  | blockEnd
  | flowSequence
  | flowSequenceEnd
  | flowMapping
  | flowMappingEnd
  | blockEntry
  | flowEntry
  | key
  | value
  | alias (name : String)
  | anchor (name : String)
  | tag (handle suffix : String)
  | scalar (text : String) (style : Style)
  deriving DecidableEq

/-- A place where a key may have started. -/
structure PendingKey where
  /-- How many tokens come before it. -/
  place : Nat
  start : Placed
  /-- Nothing but a key can start here. -/
  required : Bool

/-- What has been read, and what the next token depends on. -/
structure Scan where
  /-- The tokens, the last one first, and their number. -/
  tokens : List Token := []
  count : Nat := 0
  /-- The columns of the open blocks, the innermost first. -/
  indents : List Nat := []
  /-- The pending keys outside of each open flow collection, the innermost first. -/
  outer : List (Option PendingKey) := []
  pending : Option PendingKey := none
  keyAllowed : Bool := true

namespace Scan

def inFlow (s : Scan) : Bool := !s.outer.isEmpty

def emit (s : Scan) (t : Token) : Scan := { s with tokens := t :: s.tokens, count := s.count + 1 }

/-- Puts a token where there are `place` tokens before it. -/
def emitAt (s : Scan) (place : Nat) (t : Token) : Scan :=
  let later := s.count - place
  { s with tokens := s.tokens.take later ++ t :: s.tokens.drop later, count := s.count + 1 }

def allowKey (s : Scan) (allowed : Bool) : Scan := { s with keyAllowed := allowed }

/-! ### Blocks -/

/-- Is the column right of all open blocks? -/
def isDeeper (s : Scan) (column : Nat) : Bool := s.indents.head?.all (· < column)

/-- Opens a block at a column, if it is right of all open ones. -/
def openBlock (s : Scan) (column place : Nat) (t : Token) : Scan :=
  if !s.inFlow && s.isDeeper column then { s.emitAt place t with indents := column :: s.indents } else s

/-- Closes the blocks whose columns satisfy a condition, from the innermost on. -/
def closeWhile (condition : Nat → Bool) (s : Scan) : List Nat → Scan
  | [] => { s with indents := [] }
  | i :: rest =>
    if condition i then closeWhile condition (s.emit .blockEnd) rest else { s with indents := i :: rest }

/-- Closes the blocks right of a column. -/
def closeRightOf (s : Scan) (column : Nat) : Scan :=
  if s.inFlow then s else closeWhile (column < ·) s s.indents

def closeAll (s : Scan) : Scan := if s.inFlow then s else closeWhile (fun _ => true) s s.indents

/-! ### Pending keys -/

/-- Forgets the pending key; one that had to be a key is an error. -/
def dropKey (s : Scan) : Option Scan :=
  if s.pending.any (·.required) then none else some { s with pending := none }

/-- Is the place too far from the key for a colon that ends it? -/
def isStale (p : Placed) (k : PendingKey) : Bool := k.start.line < p.line || k.start.index + 1024 < p.index

def forgetStale (p : Placed) (k : Option PendingKey) : Option PendingKey := k.filter (!isStale p ·)

/-- Forgets the pending keys that are too far away. -/
def dropStale (s : Scan) (p : Placed) : Option Scan :=
  if (s.pending :: s.outer).any (·.any fun k => isStale p k && k.required) then none
  else some { s with pending := forgetStale p s.pending, outer := s.outer.map (forgetStale p) }

/-- Keeps the place in mind, if a key can start here. -/
def saveKey (s : Scan) (p : Placed) : Option Scan :=
  if s.keyAllowed then do
    let s ← s.dropKey
    let required := !s.inFlow && s.indents.head? == some p.column
    return { s with pending := some ⟨s.count, p, required⟩ }
  else some s

/-- Starts a token that may be a key, and that no key can follow. -/
def startKeyable (s : Scan) (p : Placed) : Option Scan := (s.saveKey p).map (·.allowKey false)

/-! ### Tokens of one character -/

def openFlow (s : Scan) (p : Placed) (t : Token) : Option Scan := do
  let s ← s.saveKey p
  return { s.emit t with outer := s.pending :: s.outer, pending := none, keyAllowed := true }

def closeFlow (s : Scan) (t : Token) : Option Scan := do
  let s ← s.dropKey
  let (pending, outer) := match s.outer with
    | k :: rest => (k, rest)
    | [] => (none, [])
  return { s.emit t with outer := outer, pending := pending, keyAllowed := false }

def flowEntry (s : Scan) : Option Scan := do
  let s ← s.dropKey
  return (s.emit .flowEntry).allowKey true

/-- A dash opens a block of entries where one can start. -/
def blockEntry (s : Scan) (p : Placed) : Option Scan := do
  if !s.inFlow && !s.keyAllowed then none
  else
    let s ← (s.openBlock p.column s.count .blockSequence).dropKey
    return (s.emit .blockEntry).allowKey true

/-- A question mark starts a key of any form. -/
def explicitKey (s : Scan) (p : Placed) : Option Scan := do
  if !s.inFlow && !s.keyAllowed then none
  else
    let s ← (s.openBlock p.column s.count .blockMapping).dropKey
    return (s.emit .key).allowKey !s.inFlow

/-- A colon makes a key of what started at the pending place. -/
def mappingValue (s : Scan) (p : Placed) : Option Scan :=
  match s.pending with
  | some k =>
    let s := (s.emitAt k.place .key).openBlock k.start.column k.place .blockMapping
    some ({ s with pending := none, keyAllowed := false }.emit .value)
  | none =>
    if !s.inFlow && !s.keyAllowed then none
    else some (((s.openBlock p.column s.count .blockMapping).allowKey !s.inFlow).emit .value)

/-! ### Names and tags -/

def isNameChar (c : Char) : Bool := c.isAlphanum || c == '_' || c == '-'

def endsName (cs : List Placed) : Bool :=
  startsGap cs ||
    cs.head?.any fun p => ['?', ':', ',', ']', '\x7d', '%', '@', Char.ofNat 0x60].contains p.char

def charsText (cs : List Placed) : String := String.ofList (cs.map Placed.char)

/-- The name after the sign of an anchor or an alias. -/
def readName (cs : List Placed) : Option (String × List Placed) :=
  let (name, rest) := cs.span fun p => isNameChar p.char
  if name.isEmpty || !endsName rest then none else some (charsText name, rest)

def isTagChar (c : Char) : Bool :=
  isNameChar c ||
    [';', '/', '?', ':', '@', '&', '=', '+', '$', '.', '!', '~', '*', '\'', '(', ')', '%'].contains c

/-- A character of a tag between angle brackets. -/
def isUriChar (c : Char) : Bool := isTagChar c || c == ',' || c == '[' || c == ']'

/-- The handle and the suffix of a tag after its exclamation mark. -/
def readTag (flow : Bool) (cs : List Placed) : Option (Token × List Placed) := do
  let (t, rest) ← match cs with
    | [] => some (.tag "" "!", [])
    | p :: more =>
      if p.char == '<' then
        let (uri, rest) := more.span fun q => isUriChar q.char
        match rest with
        | q :: rest =>
          if q.char == '>' && !uri.isEmpty then some (Token.tag "" (charsText uri), rest) else none
        | [] => none
      else
        let (name, rest) := cs.span fun q => isNameChar q.char
        match rest with
        | q :: after =>
          if q.char == '!' then
            let (suffix, rest) := after.span fun q => isTagChar q.char
            if suffix.isEmpty then none
            else some (Token.tag ("!" ++ charsText name ++ "!") (charsText suffix), rest)
          else
            let (suffix, rest) := cs.span fun q => isTagChar q.char
            some (if suffix.isEmpty then Token.tag "" "!" else .tag "!" (charsText suffix), rest)
        | [] => some (if name.isEmpty then Token.tag "" "!" else .tag "!" (charsText name), [])
  if startsGap rest || (flow && rest.head?.any (·.char == ',')) then some (t, rest) else none

/-! ### Directives -/

/-- The words of a line up to a comment. -/
def lineWords (line : List Char) : List String :=
  ((line.splitBy fun a b => isSpace a == isSpace b).filter fun w => !w.all isSpace).map String.ofList
    |>.takeWhile fun w => !w.startsWith "#"

/-- Version one, point one or two. -/
def isVersion (text : String) : Bool :=
  match text.splitOn "." with
  | [major, minor] => major.toNat? == some 1 && (minor.toNat? == some 1 || minor.toNat? == some 2)
  | _ => false

/-- The directive of a line. -/
def readDirective (line : List Char) : Option Token :=
  match lineWords line with
  | ["%YAML", version] => if isVersion version then some .version else none
  | ["%TAG", handle, start] =>
    if handle.startsWith "!" && handle.endsWith "!" then some (.tagDirective handle start) else none
  | _ => none

/-! ### The whole text -/

/-- Skips spaces, comments and empty lines up to the next token; a new line outside of flow collections
may start with a key. A tab is skipped only where no key can start. -/
def skipToToken (flow : Bool) (allowed comment : Bool) : List Placed → Bool × List Placed
  | [] => (allowed, [])
  | p :: rest =>
    if isBreak p.char then skipToToken flow (allowed || !flow) false rest
    else if comment then skipToToken flow allowed true rest
    else if p.char == ' ' || (p.char == '\t' && (flow || !allowed)) ||
        (p.char == '\uFEFF' && p.column == 0) then
      skipToToken flow allowed false rest
    else if p.char == '#' then skipToToken flow allowed true rest
    else (allowed, p :: rest)

/-- Characters that start no plain scalar. -/
def isIndicator (c : Char) : Bool :=
  ['-', '?', ':', ',', '[', ']', '\x7b', '\x7d', '#', '&', '*', '!', '|', '>', '\'', '"', '%', '@',
    Char.ofNat 0x60].contains c

def startsPlain (flow : Bool) (p : Placed) (rest : List Placed) : Bool :=
  !(isIndicator p.char || isGap p.char) || (p.char == '-' && !(rest.head?.any fun q => isSpace q.char)) ||
    (!flow && (p.char == '?' || p.char == ':') && !startsGap rest)

/-- The mark between documents, which ends every block. -/
def documentMark (s : Scan) (t : Token) : Option Scan := do
  let s ← s.closeAll.dropKey
  return (s.emit t).allowKey false

/-- Reads a plain scalar; after a line break a key can follow it. -/
def plainScalar (s : Scan) (cs : List Placed) : Option (Scan × List Placed) := do
  let (text, broken, rest) ← readPlain s.inFlow (s.indents.head?.elim 0 (· + 1)) [] .none cs
  return ((s.emit (.scalar text .plain)).allowKey (s.keyAllowed || broken), rest)

/-- Reads one token, which starts with the given character. -/
def readToken (s : Scan) (p : Placed) (rest : List Placed) : Option (Scan × List Placed) := do
  let single (r : Option Scan) : Option (Scan × List Placed) := r.map fun s => (s, rest)
  let c := p.char
  if p.column == 0 && c == '%' then
    let (line, after) := (p :: rest).span fun q => !isBreak q.char
    let s ← s.closeAll.dropKey
    let t ← readDirective (line.map Placed.char)
    return ((s.emit t).allowKey false, after)
  else if startsMarker '-' (p :: rest) then
    (s.documentMark .documentStart).map fun s => (s, rest.drop 2)
  else if startsMarker '.' (p :: rest) then
    (s.documentMark .documentEnd).map fun s => (s, rest.drop 2)
  else if c == '[' then single (s.openFlow p .flowSequence)
  else if c == '\x7b' then single (s.openFlow p .flowMapping)
  else if c == ']' then single (s.closeFlow .flowSequenceEnd)
  else if c == '\x7d' then single (s.closeFlow .flowMappingEnd)
  else if c == ',' then single s.flowEntry
  else if c == '-' && startsGap rest then single (s.blockEntry p)
  else if c == '?' && (s.inFlow || startsGap rest) then single (s.explicitKey p)
  else if c == ':' && (s.inFlow || startsGap rest) then single (s.mappingValue p)
  else if c == '*' then
    let s ← s.startKeyable p
    let (name, rest) ← readName rest
    return (s.emit (.alias name), rest)
  else if c == '&' then
    let s ← s.startKeyable p
    let (name, rest) ← readName rest
    return (s.emit (.anchor name), rest)
  else if c == '!' then
    let s ← s.startKeyable p
    let (t, rest) ← readTag s.inFlow rest
    return (s.emit t, rest)
  else if (c == '|' || c == '>') && !s.inFlow then
    let s ← s.dropKey
    let (text, rest) ← readBlock (c == '|') s.indents.head? rest
    return ((s.emit (.scalar text (if c == '|' then .literal else .quoted))).allowKey true, rest)
  else if c == '\'' then
    let s ← s.startKeyable p
    let (text, rest) ← readSingle [] .none rest
    return (s.emit (.scalar text .quoted), rest)
  else if c == '"' then
    let s ← s.startKeyable p
    let (text, rest) ← readDouble (rest.length + 1) [] .none rest
    return (s.emit (.scalar text .quoted), rest)
  else if startsPlain s.inFlow p rest then
    let s ← s.startKeyable p
    s.plainScalar (p :: rest)
  else none

/-- Reads all tokens. Every step takes a character, so the length of the text bounds the steps. -/
def readTokens : Nat → Scan → List Placed → Option (List Token)
  | 0, _, _ => none
  | steps + 1, s, cs => do
    let (allowed, cs) := skipToToken s.inFlow s.keyAllowed false cs
    let s := s.allowKey allowed
    match cs with
    | [] =>
      let s ← s.closeAll.dropKey
      return s.tokens.reverse
    | p :: rest =>
      let s ← s.dropStale p
      let (s, rest) ← (s.closeRightOf p.column).readToken p rest
      readTokens steps s rest

end Scan

/-- The tokens of a text. -/
def tokens? (text : String) : Option (List Token) := do
  let cs ← place? text
  Scan.readTokens (cs.length + 1) {} cs

end DataSchema.Yaml
