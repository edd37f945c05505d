import DataSchema.Json.Basic

/-!
Reading JSON text.

`Json.readRaw?` reads one value and keeps every member of an object, a repeated key too; `Json.ofText?`
keeps the first place and the last value of a repeated key. `Json.readKnown?` passes over the members of
an object that nothing asks for. Containers that are read nest at most 127 deep. A number
without fraction and exponent that fits 64 bits is an integer; any other is a double, obtained from its
first digits (as many as fit 64 bits) and a power of ten by one rounding each and one for their product
or quotient. A number beyond the doubles is an error.
-/

namespace DataSchema.Json

/-- Reads a value off the front of a text, if there is one. -/
abbrev Reader (α : Type) := List Char → Option (α × List Char)

def isBlank (c : Char) : Bool := c == ' ' || c == '\n' || c == '\t' || c == '\r'

def skipBlank (input : List Char) : List Char := input.dropWhile isBlank

def digitValue (c : Char) : Nat := c.toNat - '0'.toNat

/-! ### Numbers -/

/-- Appends digits to a significand while it fits 64 bits; the second part counts the digits left over. -/
def absorb (significand : Nat) : List Char → Nat × Nat
  | [] => (significand, 0)
  | c :: rest =>
    if significand * 10 + digitValue c < UInt64.size then absorb (significand * 10 + digitValue c) rest
    else (significand, rest.length + 1)

def powerOfTen (n : Nat) : Binary64 := (Binary64.ofDecimal? false 1 n).getD default

/-- The quotient, or zero of the sign where it underflows. -/
def shrink (x : Binary64) (n : Nat) : Binary64 := (x.div? (powerOfTen n)).getD (Binary64.zero x.negative)

/-- A significand scaled by a power of ten. -/
def scale? (negative : Bool) (significand : Nat) (exponent : Int) : Option Binary64 := do
  let x ← Binary64.ofRatio? negative significand 1
  if significand = 0 then some x
  else if 0 ≤ exponent then
    if exponent ≤ 308 then x.mul? (powerOfTen exponent.toNat) else none
  else
    let n := (-exponent).toNat
    if n ≤ 308 then some (shrink x n)
    else if n ≤ 616 then some (shrink (shrink x 308) (n - 308))
    else some (Binary64.zero negative)

/-- A text without fraction and exponent: an integer if it fits 64 bits. -/
def integer? (negative : Bool) (digits : List Char) : Option Number :=
  let (significand, excess) := absorb 0 digits
  if excess = 0 then
    if negative then
      if significand = 0 ∨ Whole.signedLimit < significand then
        (Binary64.ofRatio? true significand 1).map .double
      else (Whole.ofInt? (-significand)).map .whole
    else (Whole.ofInt? significand).map .whole
  else (scale? negative significand excess).map .double

/-- The fraction after a point: at least one digit. -/
def readFraction : Reader (List Char)
  | '.' :: rest =>
    let (digits, rest) := rest.span Char.isDigit
    if digits.isEmpty then none else some (digits, rest)
  | input => some ([], input)

/-- An exponent after its letter: an optional sign and at least one digit. -/
def readExponentDigits (input : List Char) : Option (Int × List Char) :=
  let (negative, rest) : Bool × List Char := match input with
    | '-' :: rest => (true, rest)
    | '+' :: rest => (false, rest)
    | rest => (false, rest)
  let (digits, rest) := rest.span Char.isDigit
  if digits.isEmpty then none
  else
    let n := digits.foldl (fun n c => n * 10 + digitValue c) 0
    some (if negative then -(n : Int) else n, rest)

def readExponent? : Reader (Option Int)
  | 'e' :: rest => (readExponentDigits rest).map fun (n, rest) => (some n, rest)
  | 'E' :: rest => (readExponentDigits rest).map fun (n, rest) => (some n, rest)
  | input => some (none, input)

/-- The digits of a number without its sign, those of its fraction, and its exponent; no leading zero
before another digit. -/
def readDigits (input : List Char) : Option ((List Char × List Char × Option Int) × List Char) := do
  let (digits, rest) := input.span Char.isDigit
  if digits.isEmpty ∨ (1 < digits.length ∧ digits.head? = some '0') then none
  else
    let (fraction, rest) ← readFraction rest
    let (exponent, rest) ← readExponent? rest
    return ((digits, fraction, exponent), rest)

/-- A number of the given sign. -/
def readUnsigned (negative : Bool) (input : List Char) : Option (Number × List Char) := do
  let ((digits, fraction, exponent), rest) ← readDigits input
  if fraction.isEmpty ∧ exponent.isNone then
    let n ← integer? negative digits
    return (n, rest)
  else
    let (significand, excess) := absorb 0 digits
    let (significand, dropped) := absorb significand fraction
    let exponent := excess - ((fraction.length - dropped : Nat) : Int) + exponent.getD 0
    let x ← scale? negative significand exponent
    return (.double x, rest)

def readNumber : Reader Number
  | '-' :: rest => readUnsigned true rest
  | input => readUnsigned false input

/-! ### Values -/

def readScalar : Reader Json
  | 'n' :: 'u' :: 'l' :: 'l' :: rest => some (.null, rest)
  | 't' :: 'r' :: 'u' :: 'e' :: rest => some (.bool true, rest)
  | 'f' :: 'a' :: 'l' :: 's' :: 'e' :: rest => some (.bool false, rest)
  | '"' :: rest => (Text.Quoted.readBody? rest).map fun (s, rest) => (.string s, rest)
  | input => (readNumber input).map fun (n, rest) => (.number n, rest)

/-- One or more parts, separated by commas, up to the closing character. -/
def readSeries {α : Type} (part : Reader α) (close : Char) : Nat → Reader (List α)
  | 0, _ => none
  | fuel + 1, input => do
    let (x, rest) ← part (skipBlank input)
    match skipBlank rest with
    | c :: rest =>
      if c = ',' then do
        let (xs, rest) ← readSeries part close fuel rest
        return (x :: xs, rest)
      else if c = close then some ([x], rest)
      else none
    | [] => none

/-- The parts of a container of which the opening character has been read. Every part takes a
character, so the length of the text bounds their number. -/
def readParts {α : Type} (part : Reader α) (close : Char) (input : List Char) :
    Option (List α × List Char) :=
  match skipBlank input with
  | c :: rest => if c = close then some ([], rest) else readSeries part close input.length (c :: rest)
  | [] => none

/-- A key, whose body follows the quote, and the value that is read for it. -/
def readMember {κ α : Type} (key : Reader κ) (value : κ → Reader α) : Reader (κ × α)
  | '"' :: rest => do
    let (k, rest) ← key rest
    match skipBlank rest with
    | ':' :: rest => do
      let (x, rest) ← value k (skipBlank rest)
      return ((k, x), rest)
    | _ => none
  | _ => none

/-- A value with containers nested at most as deep as the first argument says. -/
def readNested : Nat → Reader Json
  | 0, input => readScalar input
  | depth + 1, input =>
    match input with
    | '[' :: rest => (readParts (readNested depth) ']' rest).map fun (xs, rest) => (.array xs, rest)
    | '\x7b' :: rest =>
      (readParts (readMember Text.Quoted.readBody? fun _ => readNested depth) '\x7d' rest).map
        fun (ms, rest) => (.object ms, rest)
    | _ => readScalar input

/-! ### Passing over values

What stands under a key that nothing asks for must have the form of a value. Whether its numbers are in
range, and whether its quoted texts stand for characters, does not count. -/

def passScalar : Reader Unit
  | 'n' :: 'u' :: 'l' :: 'l' :: rest => some ((), rest)
  | 't' :: 'r' :: 'u' :: 'e' :: rest => some ((), rest)
  | 'f' :: 'a' :: 'l' :: 's' :: 'e' :: rest => some ((), rest)
  | '"' :: rest => (Text.Quoted.pieces rest).map fun (_, rest) => ((), rest)
  | '-' :: rest => (readDigits rest).map fun (_, rest) => ((), rest)
  | input => (readDigits input).map fun (_, rest) => ((), rest)

def passNested : Nat → Reader Unit
  | 0, input => passScalar input
  | depth + 1, input =>
    match input with
    | '[' :: rest => (readParts (passNested depth) ']' rest).map fun (_, rest) => ((), rest)
    | '\x7b' :: rest =>
      (readParts (readMember Text.Quoted.pieces fun _ => passNested depth) '\x7d' rest).map
        fun (_, rest) => ((), rest)
    | _ => passScalar input

/-- Passes over a value, and stands null for it; the length of the text bounds the nesting. -/
def pass : Reader Json := fun input => (passNested input.length input).map fun (_, rest) => (.null, rest)

/-! ### Texts -/

/-- How deep containers may stand in one another. -/
def nestingLimit : Nat := 127

/-- The value of a reader that takes all of a text. -/
def readWhole? (value : Reader Json) (text : String) : Option Json :=
  match value (skipBlank text.toList) with
  | some (value, rest) => if (skipBlank rest).isEmpty then some value else none
  | none => none

/-- The one value of a text, repeated keys kept. -/
def readRaw? : String → Option Json := readWhole? (readNested nestingLimit)

/-- The one value of a text, repeated keys kept; of an object, members other than the known ones are
passed over. -/
def readKnown? (known : List String) : String → Option Json :=
  readWhole? fun
    | '\x7b' :: rest =>
      let value (key : String) : Reader Json :=
        if known.contains key then readNested (nestingLimit - 1) else pass
      (readParts (readMember Text.Quoted.readBody? value) '\x7d' rest).map
        fun (ms, rest) => (.object ms, rest)
    | input => readNested nestingLimit input

mutual

/-- Puts the members of every object one after another, so that no key is left twice. -/
def collapse : Json → Json
  | .array xs => .array (collapseItems xs)
  | .object ms => .object (Entries.ofList (collapseMembers ms))
  | value => value

def collapseItems : List Json → List Json
  | [] => []
  | x :: rest => collapse x :: collapseItems rest

def collapseMembers : List (String × Json) → List (String × Json)
  | [] => []
  | (k, x) :: rest => (k, collapse x) :: collapseMembers rest

end

/-- The one value of a text. -/
def ofText? (text : String) : Option Json := (readRaw? text).map collapse

end DataSchema.Json
