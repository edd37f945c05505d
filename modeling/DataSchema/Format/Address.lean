/-!
Internet addresses in text.

A version 4 address is four numbers up to 255 without leading zeros. A version 6 address is eight groups
of up to four hexadecimal digits, where the last two groups may be written as a version 4 address, and
one run of at least one zero group may be left out between two colons.
-/

namespace DataSchema.Format

/-- A number up to 255 without a leading zero, at the start of a text. -/
def readOctet (input : List Char) : Option (List Char) :=
  let digits := input.takeWhile Char.isDigit
  let n := digits.foldl (fun n c => n * 10 + (c.toNat - 48)) (0 : Nat)
  if digits.isEmpty ∨ 3 < digits.length ∨ 255 < n ∨ (1 < digits.length ∧ digits.head? = some '0') then none
  else some (input.dropWhile Char.isDigit)

/-- The text after a given character at its start. -/
def readChar (c : Char) : List Char → Option (List Char)
  | d :: rest => if d = c then some rest else none
  | [] => none

/-- What follows a version 4 address at the start of a text. -/
def readIpv4 (input : List Char) : Option (List Char) := do
  let rest ← readOctet input
  let rest ← readOctet (← readChar '.' rest)
  let rest ← readOctet (← readChar '.' rest)
  readOctet (← readChar '.' rest)

def isIpv4 (text : List Char) : Bool := text.length ≤ 15 && readIpv4 text == some []

def isHexDigit (c : Char) : Bool := c.isDigit || ('a' ≤ c && c ≤ 'f') || ('A' ≤ c && c ≤ 'F')

/-- What follows one to four hexadecimal digits at the start of a text. -/
def readGroup (input : List Char) : Option (List Char) :=
  let digits := input.takeWhile isHexDigit
  if digits.isEmpty ∨ 4 < digits.length then none else some (input.dropWhile isHexDigit)

/-- Reads up to `limit` groups, with a colon before each but the first: how many there are, whether they
end in a version 4 address, and the rest. -/
def readGroups (isFirst : Bool) : Nat → List Char → Nat × Bool × List Char
  | 0, input => (0, false, input)
  | limit + 1, input =>
    let start := if isFirst then some input else readChar ':' input
    match if limit = 0 then none else start.bind readIpv4 with
    | some rest => (2, true, rest)
    | none =>
      match start.bind readGroup with
      | some rest =>
        let (count, mixed, rest) := readGroups false limit rest
        (count + 1, mixed, rest)
      | none => (0, false, input)

def isIpv6 (text : List Char) : Bool :=
  let (count, mixed, rest) := readGroups true 8 text
  if count = 8 then rest.isEmpty
  else if mixed then false
  else
    match rest with
    | ':' :: ':' :: rest => (readGroups true (7 - count) rest).2.2.isEmpty
    | _ => false

end DataSchema.Format
