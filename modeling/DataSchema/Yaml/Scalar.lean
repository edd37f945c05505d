import DataSchema.Yaml.Place

/-!
Scalars of a YAML text: plain, quoted, and in blocks.

In plain and quoted scalars a line break becomes a space, and of several breaks in a row the first is
dropped; the spaces around them do not count. In a literal block every break stays; in a folded one it
becomes a space between lines that do not start with a space. What ends a block is kept, cut to one
break, or dropped, as its header says.
-/

namespace DataSchema.Yaml

/-! ### Spaces and breaks between words -/

/-- What has been read since the last character of a scalar. -/
inductive Gap where
  | none
  /-- Spaces within a line, the last one first. -/
  | spaces (reversed : List Char)
  /-- Line breaks: the first, unless it is escaped, and the others, the last one first. -/
  | lines (first : Option Char) (reversed : List Char)

namespace Gap

def isNone : Gap → Bool
  | .none => true
  | _ => false

def hasBreak : Gap → Bool
  | .lines _ _ => true
  | _ => false

/-- Adds a space or a break. -/
def add (c : Char) : Gap → Gap
  | .lines first more => if isBreak c then .lines first (c :: more) else .lines first more
  | .spaces more => if isBreak c then .lines (some c) [] else .spaces (c :: more)
  | .none => if isBreak c then .lines (some c) [] else .spaces [c]

/-- The text that a gap within a scalar stands for, the last character first. -/
def folded : Gap → List Char
  | .none => []
  | .spaces more => more
  | .lines Option.none more => more
  | .lines (some first) more =>
    if first != '\n' then more ++ [first]
    else if more.isEmpty then [' ']
    else more

end Gap

/-! ### Plain scalars -/

def isFlowMark (c : Char) : Bool := c == ',' || c == '[' || c == ']' || c == '\x7b' || c == '\x7d'

/-- Does the plain scalar end before the character, given what follows it? -/
def endsPlain (flow : Bool) (least : Nat) (gap : Gap) (p : Placed) (rest : List Placed) : Bool :=
  (!gap.isNone && ((!flow && p.column < least) || startsDocumentMark (p :: rest) || p.char == '#')) ||
    (p.char == ':' && startsGap rest) || (flow && isFlowMark p.char)

/-- A colon before a mark of a flow collection is an error. -/
def strayColon (flow : Bool) (p : Placed) (rest : List Placed) : Bool :=
  flow && p.char == ':' && rest.head?.any fun q => isFlowMark q.char || q.char == '?'

/-- Reads on in a plain scalar, of which `text` is the reversed beginning; its lines start no farther left
than the column `least`, unless it is in a flow collection. Answers the text, whether lines were broken
after it, and the rest. -/
def readPlain (flow : Bool) (least : Nat) (text : List Char) (gap : Gap) :
    List Placed → Option (String × Bool × List Placed)
  | [] => some (String.ofList text.reverse, gap.hasBreak, [])
  | p :: rest =>
    if isGap p.char then
      if p.char == '\t' && gap.hasBreak && p.column < least then none
      else readPlain flow least text (gap.add p.char) rest
    else if endsPlain flow least gap p rest then
      some (String.ofList text.reverse, gap.hasBreak, p :: rest)
    else if strayColon flow p rest then none
    else readPlain flow least (p.char :: (gap.folded ++ text)) .none rest

/-! ### Quoted scalars -/

/-- The characters that a letter after a backslash stands for. -/
def escapes : List (Char × Char) :=
  [('0', '\x00'), ('a', '\x07'), ('b', '\x08'), ('t', '\t'), ('\t', '\t'), ('n', '\n'), ('v', '\x0b'),
    ('f', '\x0c'), ('r', '\r'), ('e', '\x1b'), (' ', ' '), ('"', '"'), ('\'', '\''), ('/', '/'),
    ('\\', '\\'), ('N', '\u0085'), ('_', '\u00a0'), ('L', '\u2028'), ('P', '\u2029')]

/-- How many hexadecimal digits follow a letter after a backslash. -/
def hexLength? : Char → Option Nat
  | 'x' => some 2
  | 'u' => some 4
  | 'U' => some 8
  | _ => none

def hexValue? (c : Char) : Option Nat :=
  if c.isDigit then some (c.toNat - '0'.toNat)
  else if 'a' ≤ c ∧ c ≤ 'f' then some (c.toNat - 'a'.toNat + 10)
  else if 'A' ≤ c ∧ c ≤ 'F' then some (c.toNat - 'A'.toNat + 10)
  else none

/-- The character of a code in hexadecimal digits. -/
def hexChar? (digits : List Placed) : Option Char := do
  let n ← digits.foldlM (fun n p => (hexValue? p.char).map (n * 16 + ·)) 0
  if n < 0xD800 ∨ (0xDFFF < n ∧ n ≤ 0x10FFFF) then some (Char.ofNat n) else none

/-- Reads on in a single-quoted scalar. -/
def readSingle (text : List Char) (gap : Gap) : List Placed → Option (String × List Placed)
  | [] => none
  | p :: rest =>
    if startsDocumentMark (p :: rest) then none
    else if isGap p.char then readSingle text (gap.add p.char) rest
    else if p.char == '\'' then
      match rest with
      | q :: more =>
        if q.char == '\'' then readSingle ('\'' :: (gap.folded ++ text)) .none more
        else some (String.ofList (gap.folded ++ text).reverse, rest)
      | [] => some (String.ofList (gap.folded ++ text).reverse, [])
    else readSingle (p.char :: (gap.folded ++ text)) .none rest

/-- Reads on in a double-quoted scalar. Every step takes at least one character of the text, so its
length bounds the steps. -/
def readDouble : Nat → List Char → Gap → List Placed → Option (String × List Placed)
  | 0, _, _, _ => none
  | _, _, _, [] => none
  | steps + 1, text, gap, p :: rest =>
    if startsDocumentMark (p :: rest) then none
    else if isGap p.char then readDouble steps text (gap.add p.char) rest
    else
      let before := gap.folded ++ text
      if p.char == '"' then some (String.ofList before.reverse, rest)
      else if p.char == '\\' then
        match rest with
        | [] => none
        | q :: rest =>
          if isBreak q.char then readDouble steps before (.lines none []) rest
          else
            match hexLength? q.char with
            | some n =>
              if (rest.take n).length < n then none
              else (hexChar? (rest.take n)).bind fun c => readDouble steps (c :: before) .none (rest.drop n)
            | none =>
              ((escapes.find? fun e => e.1 == q.char).map Prod.snd).bind fun c =>
                readDouble steps (c :: before) .none rest
      else readDouble steps (p.char :: before) .none rest

/-! ### Blocks -/

/-- What becomes of the breaks at the end of a block. -/
inductive Chomping where
  | strip | clip | keep

/-- What the header of a block says: the breaks at its end, and how far it is indented. -/
structure BlockHeader where
  chomping : Chomping := .clip
  indentation : Option Nat := none

/-- The signs of a header in any order, each at most once; zero is no indentation. -/
def readHeader (header : BlockHeader) (chomped : Bool) : List Placed → Option (BlockHeader × List Placed)
  | [] => some (header, [])
  | p :: rest =>
    if (p.char == '+' || p.char == '-') && !chomped then
      readHeader { header with chomping := if p.char == '+' then .keep else .strip } true rest
    else if p.char.isDigit && header.indentation.isNone then
      if p.char == '0' then none
      else readHeader { header with indentation := some (p.char.toNat - '0'.toNat) } chomped rest
    else some (header, p :: rest)

/-- The rest after the line of the header, which holds nothing more but a comment. -/
def skipHeaderLine (cs : List Placed) : Option (List Placed) :=
  let cs : List Placed := cs.dropWhile (fun p => isSpace p.char)
  let cs : List Placed := match cs with
    | p :: _ => if p.char == '#' then cs.dropWhile (fun q => !isBreak q.char) else cs
    | [] => []
  match cs with
  | [] => some []
  | p :: rest => if isBreak p.char then some rest else none

/-- Skips empty lines and the indentation of the next one; without an indentation, all of its spaces.
Answers the greatest column that was reached, the breaks, the last one first, and the rest. -/
def skipIndent (indent : Option Nat) (reached : Nat) (breaks : List Char) :
    List Placed → Option (Nat × List Char × List Placed)
  | [] => some (reached, breaks, [])
  | p :: rest =>
    let inIndent := indent.all (p.column < ·)
    if inIndent && p.char == ' ' then skipIndent indent (max reached (p.column + 1)) breaks rest
    else if inIndent && p.char == '\t' then none
    else if isBreak p.char then skipIndent indent (max reached p.column) (p.char :: breaks) rest
    else some (max reached p.column, breaks, p :: rest)

/-- A block as it is read: the reversed text, the break after the last line, the breaks of the empty lines
after it, and whether the last line started with a space. -/
structure BlockText where
  text : List Char := []
  lineBreak : Option Char := none
  breaks : List Char := []
  spaced : Bool := false

namespace BlockText

/-- The text with the breaks before a new line. -/
def joined (literal : Bool) (b : BlockText) (spaced : Bool) : List Char :=
  let first :=
    if !literal && b.lineBreak == some '\n' && !b.spaced && !spaced then
      if b.breaks.isEmpty then [' '] else []
    else b.lineBreak.toList
  b.breaks ++ (first ++ b.text)

/-- The text with what is left of the breaks at its end. -/
def ended (b : BlockText) : Chomping → List Char
  | .strip => b.text
  | .clip => b.lineBreak.toList ++ b.text
  | .keep => b.breaks ++ (b.lineBreak.toList ++ b.text)

end BlockText

/-- Reads the lines of a block at an indentation. Every line takes a character of the text, so its length
bounds their number. -/
def readLines (literal : Bool) (indent : Nat) : Nat → BlockText → List Placed →
    Option (BlockText × List Placed)
  | 0, _, _ => none
  | _, b, [] => some (b, [])
  | steps + 1, b, p :: rest => do
    if p.column ≠ indent then some (b, p :: rest)
    else
      let spaced := isSpace p.char
      let (line, rest) := (p :: rest).span fun q => !isBreak q.char
      let text := (line.map Placed.char).reverse ++ b.joined literal spaced
      let (_, breaks, after) ← skipIndent (some indent) 0 [] (rest.drop 1)
      readLines literal indent steps
        { text := text, lineBreak := rest.head?.map Placed.char, breaks := breaks, spaced := spaced } after

/-- Reads a block after its sign; `outer` is the column its content must be right of, where there is one. -/
def readBlock (literal : Bool) (outer : Option Nat) (cs : List Placed) :
    Option (String × List Placed) := do
  let (header, cs) ← readHeader {} false cs
  let cs ← skipHeaderLine cs
  let indent := header.indentation.map fun n => outer.getD 0 + n
  let (reached, breaks, cs) ← skipIndent indent 0 [] cs
  let indent := indent.getD (max reached (max (outer.elim 0 (· + 1)) 1))
  let (block, cs) ← readLines literal indent (cs.length + 1) { breaks := breaks } cs
  return (String.ofList (block.ended header.chomping).reverse, cs)

end DataSchema.Yaml
