import DataSchema.Number.Binary64

/-!
The fewest decimal digits that name a double, and the two ways of writing them out.

A decimal names a double when the double is the nearest one to it. Of the decimals with the fewest
digits that name `x`, `Binary64.shortest` is the one closest to `x`. The digits can be laid out in
positional notation or with an exponent; which of the two is used belongs to the text that is written.
-/

namespace DataSchema

/-- The number `coefficient · 10 ^ exponent`. -/
structure Decimal where
  coefficient : Nat
  exponent : Int
  deriving DecidableEq

namespace Decimal

def digits (d : Decimal) : List Char := Nat.toDigits 10 d.coefficient

/-- The exponent of the leading digit: the number is `d.ddd · 10 ^ magnitude`. -/
def magnitude (d : Decimal) : Int := d.exponent + d.digits.length - 1

/-- Moves trailing zeros of the coefficient into the exponent, at most `fuel` of them. -/
def stripZeros : Nat → Decimal → Decimal
  | 0, d => d
  | fuel + 1, d =>
    if d.coefficient ≠ 0 ∧ d.coefficient % 10 = 0 then
      stripZeros fuel ⟨d.coefficient / 10, d.exponent + 1⟩
    else d

/-- Positional notation without an exponent; a whole number has no fraction. -/
def positional (d : Decimal) : List Char :=
  let point := d.magnitude + 1
  if point ≤ 0 then
    '0' :: '.' :: (List.replicate (-point).toNat '0' ++ d.digits)
  else if d.digits.length ≤ point then
    d.digits ++ List.replicate (point.toNat - d.digits.length) '0'
  else
    d.digits.take point.toNat ++ '.' :: d.digits.drop point.toNat

/-- Positional notation that always has a fraction. -/
def positionalFraction (d : Decimal) : List Char :=
  if d.positional.contains '.' then d.positional else d.positional ++ ['.', '0']

/-- One digit before the point, no point after a lone digit, and a signed exponent. -/
def scientific (d : Decimal) : List Char :=
  let mantissa := match d.digits with
    | c :: c' :: rest => c :: '.' :: c' :: rest
    | ds => ds
  let sign := if d.magnitude < 0 then '-' else '+'
  mantissa ++ 'e' :: sign :: Nat.toDigits 10 d.magnitude.natAbs

end Decimal

namespace Binary64

/-- The ends of the interval of magnitudes that round to `x`, in quarters of a unit. Below a power of
two the gap is half as wide. -/
def roundingInterval (x : Binary64) : Nat × Nat :=
  let below := if x.mantissa = leastFull ∧ x.shift ≠ 0 then 1 else 2
  ((4 * x.mantissa - below) * Nat.pow 2 x.shift, (4 * x.mantissa + 2) * Nat.pow 2 x.shift)

/-- Does the magnitude `num / den`, in quarters of a unit, round to `x`? The ends count when the
mantissa is even. -/
def roundsTo (x : Binary64) (num den : Nat) : Bool :=
  let (low, high) := x.roundingInterval
  if x.mantissa % 2 = 0 then low * den ≤ num && num ≤ high * den
  else low * den < num && num < high * den

/-- The exponent of the leading decimal digit of a positive magnitude. -/
def decimalMagnitude (x : Binary64) : Int :=
  ((Nat.toDigits 10 (x.magnitude * Nat.pow 10 330 / unitsPerOne)).length : Int) - 331

/-- The point of the decimal grid `10 ^ exponent` that names `x` and is closest to it, if one does. -/
def nearestOnGrid (x : Binary64) (exponent : Int) : Option Decimal :=
  let step := 4 * unitsPerOne * Nat.pow 10 exponent.toNat
  let den := Nat.pow 10 (-exponent).toNat
  let value := 4 * x.magnitude * den
  let low := value / step
  let hits (c : Nat) : Bool := x.roundsTo (c * step) den
  let toLow := value - low * step
  let toHigh := (low + 1) * step - value
  let lowFirst := toLow < toHigh || (toLow == toHigh && low % 2 == 0)
  if hits low && (lowFirst || !hits (low + 1)) then some ⟨low, exponent⟩
  else if hits (low + 1) then some ⟨low + 1, exponent⟩
  else none

/-- Tries grids of `count`, `count + 1`, … digits, `tries` of them. -/
def shortestFrom (x : Binary64) (count : Nat) : Nat → Option Decimal
  | 0 => none
  | tries + 1 =>
    match x.nearestOnGrid (x.decimalMagnitude - count + 1) with
    | some d => some d
    | none => shortestFrom x (count + 1) tries

/-- The shortest decimal that names the magnitude of `x`; seventeen digits always suffice. -/
def shortest (x : Binary64) : Decimal :=
  if x.isZero then ⟨0, 0⟩
  else Decimal.stripZeros 20 ((x.shortestFrom 1 17).getD ⟨0, 0⟩)

end Binary64

end DataSchema
