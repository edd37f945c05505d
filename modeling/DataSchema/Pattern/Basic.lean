import DataSchema.Pattern.CharSet

/-!
Patterns and whether a text contains a match.

A pattern is run on sets of positions: from the positions where a match may start it gives those where
it may end. Positions run from zero to the length of the text, and a set of them is a number whose bits
tell the members, so reading one character is a shift. A pattern matches a text when some position can
be reached from some other; how a match is found, and which, does not matter.
-/

namespace DataSchema

/-- Conditions on a position that read no character. -/
inductive Anchor where
  | textStart
  | textEnd
  | lineStart (crlf : Bool)
  | lineEnd (crlf : Bool)
  | boundary (ascii : Bool)
  | notBoundary (ascii : Bool)
  | wordStart (ascii : Bool)
  | wordEnd (ascii : Bool)
  | wordStartHalf (ascii : Bool)
  | wordEndHalf (ascii : Bool)
  deriving DecidableEq

/-- A pattern whose characters and conditions are given by values of two types. -/
inductive PatternOf (σ α : Type) where
  | empty
  | char (set : σ)
  | anchor (condition : α)
  | seq (first second : PatternOf σ α)
  | alt (left right : PatternOf σ α)
  | repeated (body : PatternOf σ α) (least : Nat) (most : Option Nat)

abbrev Pattern := PatternOf CharSet Anchor

namespace PatternOf

variable {σ α σ' α' : Type}

def map (f : σ → σ') (g : α → α') : PatternOf σ α → PatternOf σ' α'
  | .empty => .empty
  | .char set => .char (f set)
  | .anchor condition => .anchor (g condition)
  | .seq first second => .seq (map f g first) (map f g second)
  | .alt left right => .alt (map f g left) (map f g right)
  | .repeated body least most => .repeated (map f g body) least most

/-- The alternatives of a list. -/
def alternatives : List (PatternOf σ α) → PatternOf σ α
  | [] => .empty
  | [p] => p
  | p :: rest => .alt p (alternatives rest)

/-- The patterns of a list, one after another. -/
def sequence : List (PatternOf σ α) → PatternOf σ α
  | [] => .empty
  | [p] => p
  | p :: rest => .seq p (sequence rest)

end PatternOf

/-! ### Positions -/

namespace Positions

/-- The positions of a list of flags, the first one being position zero. -/
def ofFlags : List Bool → Nat
  | [] => 0
  | b :: rest => 2 * ofFlags rest + (if b then 1 else 0)

/-- Applies `f` up to `count` times, and stops early when it changes nothing. -/
def iterate (f : Nat → Nat) : Nat → Nat → Nat
  | 0, set => set
  | count + 1, set =>
    let next := f set
    if next = set then set else iterate f count next

/-- The ends of the matches that start in `set`. The leaves of the pattern hold the positions before a
character of the set, and the positions where the condition holds. -/
def run (length : Nat) : PatternOf Nat Nat → Nat → Nat
  | .empty, set => set
  | .char places, set => 2 * (set &&& places)
  | .anchor places, set => set &&& places
  | .seq first second, set => run length second (run length first set)
  | .alt left right, set => run length left set ||| run length right set
  | .repeated body least most, set =>
    let reached := iterate (run length body) least set
    iterate (fun s => s ||| run length body s) (most.elim (length + 1) (· - least)) reached

end Positions

namespace Anchor

def isWordChar (ascii : Bool) (c : Option Char) : Bool :=
  c.any fun c => if ascii then CharSet.asciiWords.has c else CharSet.words.has c

/-- Does the condition hold between two neighbours, where there are any? -/
def holds (condition : Anchor) (before after : Option Char) : Bool :=
  match condition with
  | .textStart => before.isNone
  | .textEnd => after.isNone
  | .lineStart false => before.isNone || before == some '\n'
  | .lineStart true =>
    before.isNone || before == some '\n' || (before == some '\r' && after != some '\n')
  | .lineEnd false => after.isNone || after == some '\n'
  | .lineEnd true =>
    after.isNone || after == some '\r' || (after == some '\n' && before != some '\r')
  | .boundary ascii => isWordChar ascii before != isWordChar ascii after
  | .notBoundary ascii => isWordChar ascii before == isWordChar ascii after
  | .wordStart ascii => !isWordChar ascii before && isWordChar ascii after
  | .wordEnd ascii => isWordChar ascii before && !isWordChar ascii after
  | .wordStartHalf ascii => !isWordChar ascii before
  | .wordEndHalf ascii => !isWordChar ascii after

/-- Whether the condition holds at each position of the rest of a text after `before`. -/
def flags (condition : Anchor) (before : Option Char) : List Char → List Bool
  | [] => [condition.holds before none]
  | c :: rest => condition.holds before (some c) :: condition.flags (some c) rest

end Anchor

namespace Pattern

/-- About how many bytes the pattern takes when its repetitions are written out. -/
def weight : Pattern → Nat
  | .empty => 32
  | .char set => 32 + 64 * set.extent
  | .anchor _ => 32
  | .seq first second => weight first + weight second
  | .alt left right => weight left + weight right + 32
  | .repeated body least most =>
    least * weight body + (most.elim 1 (· - least)) * (weight body + 32)

/-- The weight that no pattern may pass. -/
def weightLimit : Nat := 10485760

/-- Does the text contain a match? -/
def isMatch (pattern : Pattern) (text : String) : Bool :=
  let cs := text.toList
  let bound : PatternOf Nat Nat := pattern.map
    (fun set => Positions.ofFlags (cs.map set.has))
    (fun condition => Positions.ofFlags (condition.flags none cs))
  Positions.run cs.length bound (Nat.pow 2 (cs.length + 1) - 1) != 0

end Pattern

end DataSchema
