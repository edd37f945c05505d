/-!
Sets of code points written as a text of hexadecimal ranges.

A table of a standard's character property is data: `Ranges.ofLines` reads entries such as `41-5a` or
`5f`, separated by blanks, and `Ranges.has` asks whether a character lies in one of the ranges.
-/

namespace DataSchema.Text

/-- Inclusive ranges of code points. -/
abbrev Ranges := List (Nat × Nat)

namespace Ranges

def hexDigitValue (c : Char) : Nat :=
  if 'a' ≤ c then c.toNat - 'a'.toNat + 10 else c.toNat - '0'.toNat

/-- Reads entries; the arguments are the start of the entry being read, if its dash has been passed,
and the number read so far, if a digit has been seen. -/
def read : Option Nat → Option Nat → List Char → Ranges
  | some low, some high, [] => [(low, high)]
  | none, some code, [] => [(code, code)]
  | _, _, [] => []
  | some low, some high, ' ' :: rest => (low, high) :: read none none rest
  | none, some code, ' ' :: rest => (code, code) :: read none none rest
  | _, none, ' ' :: rest => read none none rest
  | _, some code, '-' :: rest => read (some code) none rest
  | start, code, c :: rest => read start (some (code.getD 0 * 16 + hexDigitValue c)) rest

/-- The ranges of the lines of a table. -/
def ofLines (lines : List String) : Ranges := lines.flatMap fun line => read none none line.toList

def hasCode (ranges : Ranges) (code : Nat) : Bool :=
  ranges.any fun (low, high) => low ≤ code && code ≤ high

def has (ranges : Ranges) (c : Char) : Bool := hasCode ranges c.toNat

end Ranges

end DataSchema.Text
