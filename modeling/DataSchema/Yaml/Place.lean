/-!
Characters of a YAML text and their places.

Every form of line break is brought to a line feed, except the two separators that have their own
characters. A text with control characters is no YAML.
-/

namespace DataSchema.Yaml

/-- A character with its line and column and the number of characters before it. -/
structure Placed where
  char : Char
  line : Nat
  column : Nat
  index : Nat

/-- A space or a tab. -/
def isSpace (c : Char) : Bool := c == ' ' || c == '\t'

def isBreak (c : Char) : Bool := c == '\n' || c == '\u2028' || c == '\u2029'

def isGap (c : Char) : Bool := isSpace c || isBreak c

/-- May the character stand in a text? -/
def isAllowed (c : Char) : Bool :=
  let n := c.toNat
  n = 0x9 ∨ n = 0xA ∨ n = 0xD ∨ n = 0x85 ∨ (0x20 ≤ n ∧ n ≤ 0x7E) ∨ (0xA0 ≤ n ∧ n ≤ 0xFFFD) ∨ 0x10000 ≤ n

/-- Line breaks as line feeds. -/
def normalBreaks : List Char → List Char
  | '\r' :: '\n' :: rest => '\n' :: normalBreaks rest
  | c :: rest => (if c == '\r' || c == '\u0085' then '\n' else c) :: normalBreaks rest
  | [] => []

def placeFrom (line column index : Nat) : List Char → List Placed
  | [] => []
  | c :: rest =>
    ⟨c, line, column, index⟩ ::
      if isBreak c then placeFrom (line + 1) 0 (index + 1) rest
      else placeFrom line (column + 1) (index + 1) rest

/-- The characters of a text, without a mark of the byte order at its start. -/
def place? (text : String) : Option (List Placed) :=
  let cs := text.toList
  if cs.all isAllowed then
    let cs := match cs with
      | '\uFEFF' :: rest => rest
      | cs => cs
    some (placeFrom 0 0 0 (normalBreaks cs))
  else none

/-- Is the rest of a text empty, or does it start with a space or a break? -/
def startsGap : List Placed → Bool
  | [] => true
  | p :: _ => isGap p.char

/-- Does a line of three dashes, or three points, start here? -/
def startsMarker (c : Char) : List Placed → Bool
  | p :: q :: r :: rest =>
    p.column == 0 && p.char == c && q.char == c && r.char == c && startsGap rest
  | _ => false

/-- Does a mark between documents start here? -/
def startsDocumentMark (cs : List Placed) : Bool := startsMarker '-' cs || startsMarker '.' cs

end DataSchema.Yaml
