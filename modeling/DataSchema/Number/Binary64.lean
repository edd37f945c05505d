/-!
Finite binary64 numbers as exact dyadic rationals, and rounding of a quotient to the nearest one.

A number is a mantissa of at most 53 bits shifted left, counted in units of `2 ^ -1074` (the least
positive double), with a sign that zero has too. Order and equality are those of the integers that
count the units, so every comparison is exact. Infinities and NaN are not values of the type: an
operation whose exact result lies beyond the largest double answers `none`.
-/

namespace DataSchema

/-- `2 ^ 53`, above every mantissa. -/
abbrev Binary64.mantissaLimit : Nat := 9007199254740992

/-- `2 ^ 52`, the least mantissa of 53 bits. -/
abbrev Binary64.leastFull : Nat := 4503599627370496

/-- A finite double, `± mantissa · 2 ^ shift` units of `2 ^ -1074`. The mantissa has 53 bits exactly,
unless the shift is zero, so a magnitude has one form. -/
structure Binary64 where
  negative : Bool
  mantissa : Nat
  shift : Nat
  canonical : mantissa < Binary64.mantissaLimit ∧ shift ≤ 2045 ∧
    (shift = 0 ∨ Binary64.leastFull ≤ mantissa)
  deriving DecidableEq

namespace Binary64

/-- The number with the given parts, if they are in canonical form. -/
def ofParts? (negative : Bool) (mantissa shift : Nat) : Option Binary64 :=
  if h : mantissa < mantissaLimit ∧ shift ≤ 2045 ∧ (shift = 0 ∨ leastFull ≤ mantissa) then
    some ⟨negative, mantissa, shift, h⟩
  else
    none

/-- The zero of a sign. -/
def zero (negative : Bool) : Binary64 := ⟨negative, 0, 0, by decide⟩

instance : Inhabited Binary64 := ⟨zero false⟩

/-- How many units of `2 ^ -1074` make one. -/
def unitsPerOne : Nat := Nat.pow 2 1074

/-- The magnitude in units. -/
def magnitude (x : Binary64) : Nat := x.mantissa * Nat.pow 2 x.shift

/-- The value in units. -/
def units (x : Binary64) : Int := if x.negative then -(x.magnitude : Int) else x.magnitude

/-- Equal as numbers: both zeros are equal. -/
def equals (x y : Binary64) : Bool := x.units == y.units

/-- Less as numbers. -/
def less (x y : Binary64) : Bool := decide (x.units < y.units)

def isZero (x : Binary64) : Bool := x.mantissa == 0

/-- The value, where it is a whole number. -/
def toInt? (x : Binary64) : Option Int :=
  if x.magnitude % unitsPerOne = 0 then
    let n : Int := x.magnitude / unitsPerOne
    some (if x.negative then -n else n)
  else
    none

def isIntegral (x : Binary64) : Bool := x.toInt?.isSome

/-! ### Rounding -/

/-- `num / den` rounded to the nearest natural number, a half to the even one. -/
def divideHalfEven (num den : Nat) : Nat :=
  let q := num / den
  let twice := 2 * (num % den)
  if twice < den then q
  else if den < twice then q + 1
  else q + q % 2

/-- The double nearest to `num / den`, ties to the even mantissa; `none` beyond the largest double. -/
def ofRatio? (negative : Bool) (num den : Nat) : Option Binary64 :=
  let scaled := num * unitsPerOne
  let shift := (scaled / den).log2 - 52
  let mantissa := divideHalfEven scaled (den * Nat.pow 2 shift)
  if mantissa = mantissaLimit then ofParts? negative leastFull (shift + 1)
  else ofParts? negative mantissa shift

/-- The double nearest to an integer. -/
def ofInt? (n : Int) : Option Binary64 := ofRatio? (decide (n < 0)) n.natAbs 1

/-- The double nearest to `± digits · 10 ^ exponent`; an exponent that alone decides between zero and
overflow is not expanded. -/
def ofDecimal? (negative : Bool) (digits : Nat) (exponent : Int) : Option Binary64 :=
  if digits = 0 then some (zero negative)
  else if exponent > 400 then none
  else if exponent + digits.log2 < -400 then some (zero negative)
  else if 0 ≤ exponent then ofRatio? negative (digits * Nat.pow 10 exponent.toNat) 1
  else ofRatio? negative digits (Nat.pow 10 (-exponent).toNat)

/-- The rounded product. -/
def mul? (x y : Binary64) : Option Binary64 :=
  ofRatio? (x.negative != y.negative) (x.magnitude * y.magnitude) (unitsPerOne * unitsPerOne)

/-- The rounded quotient; `none` too for a division by zero. -/
def div? (x y : Binary64) : Option Binary64 :=
  if y.isZero then none else ofRatio? (x.negative != y.negative) x.magnitude y.magnitude

/-- The distance to the nearest whole number, in units. -/
def distanceToWhole (x : Binary64) : Nat :=
  let part := x.magnitude % unitsPerOne
  min part (unitsPerOne - part)

end Binary64

end DataSchema
