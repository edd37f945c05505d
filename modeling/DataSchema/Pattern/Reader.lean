import DataSchema.Pattern.Basic
import DataSchema.Pattern.Engine
import DataSchema.Pattern.Property

/-!
The written form of patterns, and an engine that runs them.

Literals, `.`, classes in brackets with nesting and set operations, anchors and word boundaries,
alternatives, groups (numbered, named and without capture), repetition, inline flags and the escapes of
characters and classes. Look-around and references back to a group are no part of the language. A text
that is not of this form has no pattern: `Pattern.read?` answers `none`. Neither has one that asks for a
property of characters beside the general categories and those of `Text.property?` and `Text.scripts`,
though the standard has more.

The engine is for running the definitions and for closed examples; no general statement depends on it.
-/

namespace DataSchema.Pattern

/-- The flags in force while a pattern is read. -/
structure Flags where
  caseless : Bool := false
  multiLine : Bool := false
  dotAll : Bool := false
  crlf : Bool := false
  verbose : Bool := false
  ascii : Bool := false

/-- Drops white space and comments. -/
def skipComments (inComment : Bool) : List Char → List Char
  | [] => []
  | c :: rest =>
    if inComment then skipComments (c != '\n') rest
    else if c == '#' then skipComments true rest
    else if Text.isBlank c then skipComments false rest
    else c :: rest

/-- What is skipped between tokens: nothing, unless the pattern is verbose. -/
def skip (flags : Flags) (input : List Char) : List Char :=
  if flags.verbose then skipComments false input else input

/-! ### Sets under the flags -/

/-- The set closed under case variants when the flags say so. -/
def folded (flags : Flags) (set : CharSet) : CharSet :=
  if flags.caseless then
    if flags.ascii then .union set (.inter (.caseless set) (.ranges [(0, 127)]))
    else .caseless set
  else set

def literal (flags : Flags) (c : Char) : CharSet := folded flags (.single c)

/-- A class that an escape names, or its complement; without Unicode a complement would read parts of
characters, so there is none. -/
def namedClass (flags : Flags) (negated : Bool) (unicode ascii : CharSet) : Option CharSet :=
  if flags.ascii then
    if negated then none else some ascii
  else some (.complIf negated unicode)

def dot (flags : Flags) : Option CharSet :=
  if flags.ascii then none
  else if flags.dotAll then some .any
  else if flags.crlf then some (.compl (.ranges [(10, 10), (13, 13)]))
  else some (.compl (.single '\n'))

/-! ### Escapes -/

/-- What an escape stands for. -/
inductive Escape where
  | char (c : Char)
  | set (set : CharSet)
  | anchor (condition : Anchor)

def hexDigit? (c : Char) : Option Nat :=
  if '0' ≤ c ∧ c ≤ '9' then some (c.toNat - 48)
  else if 'a' ≤ c ∧ c ≤ 'f' then some (c.toNat - 87)
  else if 'A' ≤ c ∧ c ≤ 'F' then some (c.toNat - 55)
  else none

/-- The character with a hexadecimal code. -/
def hexChar? (digits : List Char) : Option Char := do
  if digits.isEmpty then none
  let values ← digits.mapM hexDigit?
  let code := values.foldl (fun n d => n * 16 + d) 0
  if code.isValidChar then some (Char.ofNat code) else none

/-- A code in braces, or one of a fixed number of digits. -/
def readHex (count : Nat) : List Char → Option (Char × List Char)
  | '\x7b' :: rest =>
    match rest.dropWhile (· != '\x7d') with
    | _ :: after => (hexChar? (rest.takeWhile (· != '\x7d'))).map (·, after)
    | [] => none
  | input =>
    if input.length < count then none
    else (hexChar? (input.take count)).map (·, input.drop count)

/-- The boundary that a name in braces asks for. -/
def namedBoundary? (ascii : Bool) : String → Option Anchor
  | "start" => some (.wordStart ascii)
  | "end" => some (.wordEnd ascii)
  | "start-half" => some (.wordStartHalf ascii)
  | "end-half" => some (.wordEndHalf ascii)
  | _ => none

def isBoundaryName (c : Char) : Bool := c.isAlpha || c == '-'

/-- A word boundary, with a name in braces if a name follows the brace. -/
def readBoundary (flags : Flags) : List Char → Option (Escape × List Char)
  | '\x7b' :: c :: rest =>
    if isBoundaryName c then
      match (c :: rest).dropWhile isBoundaryName with
      | '\x7d' :: after =>
        (namedBoundary? flags.ascii (String.ofList ((c :: rest).takeWhile isBoundaryName))).map
          (.anchor ·, after)
      | _ => none
    else some (.anchor (.boundary flags.ascii), '\x7b' :: c :: rest)
  | input => some (.anchor (.boundary flags.ascii), input)

/-- A class by a property: a letter, or a query in braces. Without Unicode there is none. -/
def readProperty (flags : Flags) (negated : Bool) (input : List Char) : Option (Escape × List Char) := do
  let (set, rest) ← match input with
    | [] => none
    | '\\' :: _ => none
    | '\x7b' :: rest =>
      match rest.dropWhile (· != '\x7d') with
      | _ :: after => (CharSet.ofQuery? (rest.takeWhile (· != '\x7d'))).map (·, after)
      | [] => none
    | c :: rest => (CharSet.ofName? (CharSet.plainName [c])).map (·, rest)
  if flags.ascii then none else some (.set (.complIf negated (folded flags set)), rest)

/-- The escape after a backslash. -/
def readEscape (flags : Flags) : List Char → Option (Escape × List Char)
  | [] => none
  | c :: rest =>
    match c with
    | 'x' => (readHex 2 (skip flags rest)).bind fun (d, after) =>
        if flags.ascii ∧ 127 < d.toNat ∧ (skip flags rest).head? ≠ some '\x7b' then none
        else some (.char d, after)
    | 'u' => (readHex 4 (skip flags rest)).map fun (d, after) => (.char d, after)
    | 'U' => (readHex 8 (skip flags rest)).map fun (d, after) => (.char d, after)
    | 'd' => (namedClass flags false .digits .asciiDigits).map (.set ·, rest)
    | 'D' => (namedClass flags true .digits .asciiDigits).map (.set ·, rest)
    | 's' => (namedClass flags false .blanks .asciiBlanks).map (.set ·, rest)
    | 'S' => (namedClass flags true .blanks .asciiBlanks).map (.set ·, rest)
    | 'w' => (namedClass flags false .words .asciiWords).map (.set ·, rest)
    | 'W' => (namedClass flags true .words .asciiWords).map (.set ·, rest)
    | 'p' => readProperty flags false (skip flags rest)
    | 'P' => readProperty flags true (skip flags rest)
    | 'a' => some (.char (Char.ofNat 7), rest)
    | 'f' => some (.char (Char.ofNat 12), rest)
    | 't' => some (.char '\t', rest)
    | 'n' => some (.char '\n', rest)
    | 'r' => some (.char '\r', rest)
    | 'v' => some (.char (Char.ofNat 11), rest)
    | 'A' => some (.anchor .textStart, rest)
    | 'z' => some (.anchor .textEnd, rest)
    | 'b' => readBoundary flags rest
    | 'B' => some (.anchor (.notBoundary flags.ascii), rest)
    | '<' => some (.anchor (.wordStart flags.ascii), rest)
    | '>' => some (.anchor (.wordEnd flags.ascii), rest)
    | c => if c.toNat < 128 ∧ ¬c.isAlphanum then some (.char c, rest) else none

/-! ### Classes in brackets -/

/-- The operations between the parts of a class, all of one rank. -/
inductive SetOp where
  | inter
  | diff
  | symmDiff

def SetOp.apply : SetOp → CharSet → CharSet → CharSet
  | .inter, left, right => .inter left right
  | .diff, left, right => .diff left right
  | .symmDiff, left, right => .symmDiff left right

/-- Applies an operation that waits for its right side. -/
def closeOp (pending : Option (SetOp × CharSet)) (right : CharSet) : CharSet :=
  match pending with
  | some (op, left) => op.apply left right
  | none => right

/-- A class with a name between colons, of which the bracket has been read. -/
def readNamedClass (flags : Flags) : List Char → Option (CharSet × List Char)
  | ':' :: rest =>
    let (negated, rest) : Bool × List Char := match rest with
      | '^' :: rest => (true, rest)
      | rest => (false, rest)
    match rest.dropWhile (· != ':') with
    | ':' :: ']' :: after =>
      (CharSet.named? (String.ofList (rest.takeWhile (· != ':')))).map fun set =>
        (.complIf negated (folded flags set), after)
    | _ => none
  | _ => none

def readClassItem (flags : Flags) : List Char → Option (Escape × List Char)
  | '\\' :: rest => readEscape flags rest
  | c :: rest => some (.char c, rest)
  | [] => none

/-- The set of one item; without Unicode only ASCII characters are items, and an anchor never is. The sets
of escapes are closed under case variants already, or made so where they are read. -/
def itemSet (flags : Flags) : Escape → Option CharSet
  | .char c => if flags.ascii ∧ 127 < c.toNat then none else some (literal flags c)
  | .set set => some set
  | .anchor _ => none

/-- The set of a range, whose ends must be characters in order. -/
def rangeSet (flags : Flags) : Escape → Escape → Option CharSet
  | .char low, .char high =>
    if high.toNat < low.toNat ∨ (flags.ascii ∧ 127 < high.toNat) then none
    else some (folded flags (.ranges [(low.toNat, high.toNat)]))
  | _, _ => none

/-- An item, or two with a dash between them. A dash before the closing bracket or before another dash
stands for itself or begins an operation. -/
def readClassRange (flags : Flags) (input : List Char) : Option (CharSet × List Char) := do
  let (low, rest) ← readClassItem flags input
  let alone := (itemSet flags low).map (·, skip flags rest)
  match skip flags rest with
  | [] => none
  | '-' :: rest =>
    match skip flags rest with
    | [] => none
    | ']' :: _ => alone
    | '-' :: _ => alone
    | rest => do
      let (high, rest) ← readClassItem flags rest
      let set ← rangeSet flags low high
      return (set, rest)
  | _ => alone

/-- The dashes at the start of a class, or else a closing bracket there, stand for themselves. -/
def readClassStart (flags : Flags) (input : List Char) : CharSet × List Char :=
  match input with
  | '-' :: rest => (literal flags '-', skip flags (rest.dropWhile (· == '-')))
  | ']' :: rest => (literal flags ']', skip flags rest)
  | rest => (.empty, rest)

mutual

/-- A class of which the opening bracket has been read. -/
def readClass (flags : Flags) : Nat → List Char → Option (CharSet × List Char)
  | 0, _ => none
  | fuel + 1, input =>
    let (negated, rest) : Bool × List Char := match skip flags input with
      | '^' :: rest => (true, skip flags rest)
      | rest => (false, rest)
    let (start, rest) := readClassStart flags rest
    match readClassBody flags fuel none start rest with
    | none => none
    | some (set, rest) => if negated && flags.ascii then none else some (.complIf negated set, rest)

def readClassBody (flags : Flags) :
    Nat → Option (SetOp × CharSet) → CharSet → List Char → Option (CharSet × List Char)
  | 0, _, _, _ => none
  | fuel + 1, pending, union, input =>
    match skip flags input with
    | [] => none
    | ']' :: rest => some (closeOp pending union, rest)
    | '[' :: rest =>
      match readNamedClass flags rest with
      | some (set, rest) => readClassBody flags fuel pending (.union union set) rest
      | none =>
        match readClass flags fuel rest with
        | none => none
        | some (set, rest) => readClassBody flags fuel pending (.union union set) rest
    | '&' :: '&' :: rest => readClassBody flags fuel (some (.inter, closeOp pending union)) .empty rest
    | '-' :: '-' :: rest => readClassBody flags fuel (some (.diff, closeOp pending union)) .empty rest
    | '~' :: '~' :: rest =>
      readClassBody flags fuel (some (.symmDiff, closeOp pending union)) .empty rest
    | rest =>
      match readClassRange flags rest with
      | none => none
      | some (set, rest) => readClassBody flags fuel pending (.union union set) rest

end

/-! ### Tokens -/

inductive Token where
  | atom (pattern : Pattern)
  | flags (flags : Flags)
  | openGroup (flags : Flags) (name : Option String)
  | closeGroup
  | bar
  | repetition (least : Nat) (most : Option Nat)

def setFlag? (flags : Flags) (on : Bool) : Char → Option Flags
  | 'i' => some { flags with caseless := on }
  | 'm' => some { flags with multiLine := on }
  | 's' => some { flags with dotAll := on }
  | 'R' => some { flags with crlf := on }
  | 'x' => some { flags with verbose := on }
  | 'u' => some { flags with ascii := !on }
  | 'U' => some flags
  | _ => none

/-- Flags up to a colon, which opens a group, or a closing parenthesis. No flag comes twice, at most one
dash switches the rest off, and something follows it. -/
def readFlags (flags : Flags) (seen : List Char) : List Char → Option (Token × List Char)
  | [] => none
  | ':' :: rest => if seen.head? = some '-' then none else some (.openGroup flags none, rest)
  | ')' :: rest =>
    if seen.isEmpty ∨ seen.head? = some '-' then none else some (.flags flags, rest)
  | c :: rest =>
    if seen.contains c then none
    else if c = '-' then readFlags flags (c :: seen) rest
    else
      match setFlag? flags (!seen.contains '-') c with
      | none => none
      | some flags => readFlags flags (c :: seen) rest

def isNameStart (c : Char) : Bool := c == '_' || (Text.isWord c && !Text.isDigit c)

def isNameChar (c : Char) : Bool := c == '.' || c == '[' || c == ']' || Text.isWord c

/-- The name of a group up to its closing angle. -/
def readGroupName (flags : Flags) (input : List Char) : Option (Token × List Char) :=
  match input.dropWhile (· != '>') with
  | [] => none
  | _ :: rest =>
    match input.takeWhile (· != '>') with
    | [] => none
    | c :: cs =>
      if isNameStart c ∧ cs.all isNameChar then
        some (.openGroup flags (some (String.ofList (c :: cs))), rest)
      else none

/-- The start of a group of which the parenthesis has been read. -/
def readGroupStart (flags : Flags) : List Char → Option (Token × List Char)
  | '?' :: '=' :: _ => none
  | '?' :: '!' :: _ => none
  | '?' :: '<' :: '=' :: _ => none
  | '?' :: '<' :: '!' :: _ => none
  | '?' :: 'P' :: '<' :: rest => readGroupName flags rest
  | '?' :: '<' :: rest => readGroupName flags rest
  | '?' :: rest => readFlags flags [] rest
  | input => some (.openGroup flags none, input)

/-- A count below `2 ^ 32`, with white space around it. -/
def readCount (flags : Flags) (input : List Char) : Option (Nat × List Char) :=
  let input := input.dropWhile Text.isBlank
  let digits := input.takeWhile Char.isDigit
  let n := digits.foldl (fun n c => n * 10 + (c.toNat - 48)) 0
  if digits.isEmpty ∨ UInt32.size ≤ n then none
  else some (n, (skip flags (input.dropWhile Char.isDigit)).dropWhile Text.isBlank)

/-- After a repetition, a question mark only makes it reluctant. -/
def dropReluctant : List Char → List Char
  | '?' :: rest => rest
  | input => input

def finishCounts (flags : Flags) (least : Nat) (most : Option Nat) :
    List Char → Option (Token × List Char)
  | '\x7d' :: rest =>
    if most.any (· < least) then none
    else some (.repetition least most, dropReluctant (skip flags rest))
  | _ => none

/-- The counts of a repetition of which the brace has been read. -/
def readCounts (flags : Flags) (input : List Char) : Option (Token × List Char) := do
  let (least, rest) ← readCount flags (skip flags input)
  match rest with
  | ',' :: rest =>
    match skip flags rest with
    | '\x7d' :: rest => finishCounts flags least none ('\x7d' :: rest)
    | rest => do
      let (most, rest) ← readCount flags rest
      finishCounts flags least (some most) rest
  | rest => finishCounts flags least (some least) rest

def escapeAtom (flags : Flags) : Escape → Token
  | .char c => .atom (.char (literal flags c))
  | .set set => .atom (.char set)
  | .anchor condition => .atom (.anchor condition)

/-- One token of a text that is not empty. -/
def readToken (flags : Flags) : List Char → Option (Token × List Char)
  | [] => none
  | '(' :: rest => readGroupStart flags (skip flags rest)
  | ')' :: rest => some (.closeGroup, rest)
  | '|' :: rest => some (.bar, rest)
  | '[' :: rest =>
    (readClass flags (rest.length + 2) rest).map fun (set, rest) => (.atom (.char set), rest)
  | '?' :: rest => some (.repetition 0 (some 1), dropReluctant rest)
  | '*' :: rest => some (.repetition 0 none, dropReluctant rest)
  | '+' :: rest => some (.repetition 1 none, dropReluctant rest)
  | '\x7b' :: rest => readCounts flags rest
  | '\\' :: rest => (readEscape flags rest).map fun (e, rest) => (escapeAtom flags e, rest)
  | '.' :: rest => (dot flags).map fun set => (.atom (.char set), rest)
  | '^' :: rest =>
    some (.atom (.anchor (if flags.multiLine then .lineStart flags.crlf else .textStart)), rest)
  | '$' :: rest =>
    some (.atom (.anchor (if flags.multiLine then .lineEnd flags.crlf else .textEnd)), rest)
  | c :: rest => some (.atom (.char (literal flags c)), rest)

/-! ### Groups -/

/-- A group that is being read: the parts of its current branch, last first, where flags leave a mark;
the branches before it, last first; and the flags in force outside. -/
structure Frame where
  parts : List (Option Pattern) := []
  branches : List Pattern := []
  outer : Flags := {}

/-- The pattern of a group whose last branch is complete. -/
def Frame.finish (frame : Frame) : Pattern :=
  let last := PatternOf.sequence (frame.parts.reverse.filterMap id)
  PatternOf.alternatives (last :: frame.branches).reverse

/-- The state of reading: the flags in force, the innermost group, those around it, and the names of
groups so far. -/
structure State where
  flags : Flags := {}
  frame : Frame := {}
  outside : List Frame := []
  names : List String := []

def State.push (state : State) (part : Option Pattern) : State :=
  { state with frame := { state.frame with parts := part :: state.frame.parts } }

/-- How deep groups may stand in one another. -/
def nestingLimit : Nat := 250

/-- Takes one token; a repetition needs a pattern before it, a closing parenthesis an open group, and a
name is given once. -/
def State.accept (state : State) : Token → Option State
  | .atom pattern => some (state.push (some pattern))
  | .flags flags => some { state.push none with flags := flags }
  | .openGroup flags name =>
    if name.any state.names.contains ∨ nestingLimit ≤ state.outside.length then none
    else some { flags, frame := { outer := state.flags }, outside := state.frame :: state.outside,
                names := name.toList ++ state.names }
  | .closeGroup =>
    match state.outside with
    | [] => none
    | frame :: outside =>
      some { state with
        flags := state.frame.outer, outside
        frame := { frame with parts := some state.frame.finish :: frame.parts } }
  | .bar =>
    let last := PatternOf.sequence (state.frame.parts.reverse.filterMap id)
    some { state with frame := { state.frame with parts := [], branches := last :: state.frame.branches } }
  | .repetition least most =>
    match state.frame.parts with
    | some body :: parts =>
      some { state with frame := { state.frame with parts := some (.repeated body least most) :: parts } }
    | _ => none

/-- Reads tokens to the end of the text, where every group must be closed. -/
def readTokens : Nat → State → List Char → Option Pattern
  | 0, _, _ => none
  | fuel + 1, state, input =>
    match skip state.flags input with
    | [] => if state.outside.isEmpty then some state.frame.finish else none
    | input =>
      match readToken state.flags input with
      | none => none
      | some (token, rest) =>
        match state.accept token with
        | none => none
        | some state => readTokens fuel state rest

/-- The pattern that a text writes, unless it is too large with its repetitions written out. Every token
takes a character, so the length bounds their number. -/
def read? (text : String) : Option Pattern :=
  (readTokens (text.length + 1) {} text.toList).filter fun pattern => pattern.weight ≤ weightLimit

/-- The engine that reads patterns in this form. -/
instance reader : Engine where
  Compiled := Pattern
  compile? := read?
  isMatch := isMatch

end DataSchema.Pattern
