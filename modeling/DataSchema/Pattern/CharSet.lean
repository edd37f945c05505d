import DataSchema.Text.CaseFold
import DataSchema.Text.CharClass

/-!
Sets of characters that a pattern can ask for.

A set is built from ranges of code points by the set operations, and can be closed under case variants.
Membership is decided by recursion on how the set was built.
-/

namespace DataSchema

inductive CharSet where
  | ranges (ranges : Text.Ranges)
  | caseless (set : CharSet)
  | compl (set : CharSet)
  | union (left right : CharSet)
  | inter (left right : CharSet)

namespace CharSet

def hasCode : CharSet → Nat → Bool
  | .ranges rs, code => rs.hasCode code
  | .caseless set, code => (Text.caseVariants (Char.ofNat code)).any fun code => hasCode set code
  | .compl set, code => !hasCode set code
  | .union left right, code => hasCode left code || hasCode right code
  | .inter left right, code => hasCode left code && hasCode right code

def has (set : CharSet) (c : Char) : Bool := set.hasCode c.toNat

/-- How many ranges the set was built from, where one character counts for none. -/
def extent : CharSet → Nat
  | .ranges rs => rs.countP fun (low, high) => low < high
  | .caseless set => extent set
  | .compl set => extent set + 1
  | .union left right => extent left + extent right
  | .inter left right => extent left + extent right

def empty : CharSet := .ranges []

def any : CharSet := .compl empty

def single (c : Char) : CharSet := .ranges [(c.toNat, c.toNat)]

def diff (left right : CharSet) : CharSet := .inter left (.compl right)

def symmDiff (left right : CharSet) : CharSet := .union (diff left right) (diff right left)

/-- The set or its complement. -/
def complIf (negated : Bool) (set : CharSet) : CharSet := if negated then .compl set else set

def digits : CharSet := .ranges Text.digitRanges

def blanks : CharSet := .ranges Text.blankRanges

def words : CharSet := .ranges Text.wordRanges

def asciiDigits : CharSet := .ranges [(48, 57)]

def asciiBlanks : CharSet := .ranges [(9, 13), (32, 32)]

def asciiWords : CharSet := .ranges [(48, 57), (65, 90), (95, 95), (97, 122)]

/-- The ASCII classes that have a name. -/
def named? : String → Option CharSet
  | "alnum" => some (.ranges [(48, 57), (65, 90), (97, 122)])
  | "alpha" => some (.ranges [(65, 90), (97, 122)])
  | "ascii" => some (.ranges [(0, 127)])
  | "blank" => some (.ranges [(9, 9), (32, 32)])
  | "cntrl" => some (.ranges [(0, 31), (127, 127)])
  | "digit" => some asciiDigits
  | "graph" => some (.ranges [(33, 126)])
  | "lower" => some (.ranges [(97, 122)])
  | "print" => some (.ranges [(32, 126)])
  | "punct" => some (.ranges [(33, 47), (58, 64), (91, 96), (123, 126)])
  | "space" => some asciiBlanks
  | "upper" => some (.ranges [(65, 90)])
  | "word" => some asciiWords
  | "xdigit" => some (.ranges [(48, 57), (65, 70), (97, 102)])
  | _ => none

end CharSet

end DataSchema
