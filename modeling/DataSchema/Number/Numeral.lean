import DataSchema.Number.Binary64

/-!
Numerals in plain text.

An integer is digits after an optional sign. A decimal has a point anywhere among its digits, or none,
at least one digit, and an optional exponent; it names the nearest double. All digits are ASCII.
-/

namespace DataSchema.Numeral

def digitsValue (digits : List Char) : Nat :=
  digits.foldl (fun n c => n * 10 + (c.toNat - '0'.toNat)) 0

/-- Splits off a sign; true for a minus. -/
def splitSign : List Char → Bool × List Char
  | '-' :: rest => (true, rest)
  | '+' :: rest => (false, rest)
  | rest => (false, rest)

/-- The integer of the whole text. -/
def integer? (text : List Char) : Option Int :=
  let (negative, digits) := splitSign text
  if digits.isEmpty ∨ ¬digits.all Char.isDigit then none
  else some (if negative then -(digitsValue digits : Int) else digitsValue digits)

/-- The exponent that ends a decimal: zero if there is none. -/
def exponent? : List Char → Option Int
  | [] => some 0
  | c :: rest => if c = 'e' ∨ c = 'E' then integer? rest else none

/-- The double that is nearest to the decimal of the whole text; none beyond the doubles. -/
def double? (text : List Char) : Option Binary64 :=
  let (negative, rest) := splitSign text
  let (whole, rest) := rest.span Char.isDigit
  let (fraction, rest) : List Char × List Char := match rest with
    | '.' :: rest => rest.span Char.isDigit
    | rest => ([], rest)
  if whole.isEmpty ∧ fraction.isEmpty then none
  else
    match exponent? rest with
    | none => none
    | some e => Binary64.ofDecimal? negative (digitsValue (whole ++ fraction)) (e - fraction.length)

end DataSchema.Numeral
