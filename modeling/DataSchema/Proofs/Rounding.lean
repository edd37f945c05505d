import Mathlib.Algebra.Group.Nat.Defs
import DataSchema.Json.Basic

/-!
Integers of 64 bits as doubles.

A quotient is rounded to a whole number at most half away from it (`Binary64.divideHalfEven_near`). The
double of an integer is the integer rounded so, in steps of the gap between doubles at its size
(`Whole.units_toDouble`). An integer of up to 53 bits is its own double, and below `2 ^ 53` no other integer
has it (`Binary64.nearestInt_ne_of_small`); further up integers have the same double only if they are close
(`Whole.nearestInt_ne_of_far`).
-/

namespace DataSchema

namespace Binary64

/-! ### Rounding of a quotient -/

/-- Rounded down or up, to the end that is not farther away. -/
theorem divideHalfEven_cases (num den : Nat) :
    (divideHalfEven num den = num / den ∧ 2 * (num % den) ≤ den) ∨
      (divideHalfEven num den = num / den + 1 ∧ den ≤ 2 * (num % den)) := by
  simp only [divideHalfEven]
  split
  · next hdown => exact .inl ⟨rfl, by omega⟩
  · split
    · next hup => exact .inr ⟨rfl, by omega⟩
    · rcases Nat.mod_two_eq_zero_or_one (num / den) with heven | hodd
      · exact .inl ⟨by rw [heven, Nat.add_zero], by omega⟩
      · exact .inr ⟨by rw [hodd], by omega⟩

theorem divideHalfEven_mul_right (num den : Nat) {c : Nat} (hc : 0 < c) :
    divideHalfEven (num * c) (den * c) = divideHalfEven num den := by
  have htwice : 2 * (num % den * c) = 2 * (num % den) * c := (Nat.mul_assoc ..).symm
  simp only [divideHalfEven, Nat.mul_div_mul_right _ _ hc, Nat.mul_mod_mul_right, htwice,
    Nat.mul_lt_mul_right hc]

/-- A whole quotient is kept. -/
theorem divideHalfEven_mul_self (q : Nat) {den : Nat} (h : 0 < den) :
    divideHalfEven (q * den) den = q := by
  simp [divideHalfEven, Nat.mul_div_cancel q h, h]

theorem le_divideHalfEven {low num den : Nat} (hden : 0 < den) (h : low * den ≤ num) :
    low ≤ divideHalfEven num den := by
  have hfloor : low ≤ num / den := (Nat.le_div_iff_mul_le hden).mpr h
  rcases divideHalfEven_cases num den with ⟨hdown, _⟩ | ⟨hup, _⟩ <;> omega

theorem divideHalfEven_le {high num den : Nat} (hden : 0 < den) (h : num ≤ high * den) :
    divideHalfEven num den ≤ high := by
  have hparts := Nat.div_add_mod num den
  rcases divideHalfEven_cases num den with ⟨hdown, _⟩ | ⟨hup, hhalf⟩
  · rw [hdown]
    exact Nat.div_le_of_le_mul (Nat.mul_comm high den ▸ h)
  · -- there is a rest, so the floor is below the bound
    rw [hup, Nat.succ_le_iff]
    refine Nat.lt_of_mul_lt_mul_left (a := den) ?_
    calc den * (num / den) < num := by omega
      _ ≤ den * high := Nat.mul_comm high den ▸ h

/-- The multiple that is rounded to is at most half the divisor away. -/
theorem divideHalfEven_near (num : Nat) {den : Nat} (hden : 0 < den) :
    2 * num ≤ 2 * (divideHalfEven num den * den) + den ∧
      2 * (divideHalfEven num den * den) ≤ 2 * num + den := by
  have hparts : num / den * den + num % den = num := Nat.div_add_mod' num den
  have hrest := Nat.mod_lt num hden
  rcases divideHalfEven_cases num den with ⟨hdown, hhalf⟩ | ⟨hup, hhalf⟩
  · rw [hdown]
    generalize num / den * den = floor at *
    omega
  · rw [hup, Nat.add_one_mul (num / den)]
    generalize num / den * den = floor at *
    omega

/-! ### Natural numbers -/

/-- The gap between doubles at the size of a number, or one where doubles are closer. -/
def spacing (n : Nat) : Nat := 2 ^ (n.log2 - 52)

/-- The number rounded to 53 bits. -/
def nearest (n : Nat) : Nat := divideHalfEven n (spacing n) * spacing n

theorem spacing_pos (n : Nat) : 0 < spacing n := Nat.two_pow_pos _

theorem nearest_of_le {n : Nat} (h : n ≤ mantissaLimit) : nearest n = n := by
  rcases Nat.eq_or_lt_of_le h with rfl | hlt
  · decide
  · have hlog : n.log2 - 52 = 0 := by
      rcases Nat.eq_zero_or_pos n with rfl | hpos
      · rfl
      · have := (Nat.log2_lt (k := 53) (Nat.ne_of_gt hpos)).mpr hlt
        omega
    have hself := divideHalfEven_mul_self n Nat.one_pos
    rw [Nat.mul_one] at hself
    rw [nearest, spacing, hlog, Nat.pow_zero, Nat.mul_one, hself]

theorem le_nearest_of_le {n : Nat} (h : mantissaLimit ≤ n) : mantissaLimit ≤ nearest n := by
  have hpos : n ≠ 0 := by
    rintro rfl
    exact absurd h (by decide)
  have hlog : 53 ≤ n.log2 := (Nat.le_log2 hpos).mpr h
  have hfull : leastFull * spacing n ≤ n := by
    refine Nat.le_trans (Nat.le_of_eq ?_) (Nat.log2_self_le hpos)
    rw [spacing, show leastFull = 2 ^ 52 from rfl, ← Nat.pow_add, Nat.add_sub_cancel' (by omega)]
  calc mantissaLimit = leastFull * 2 ^ 1 := rfl
    _ ≤ leastFull * spacing n :=
      Nat.mul_le_mul_left _ (Nat.pow_le_pow_right Nat.two_pos (by omega))
    _ ≤ nearest n := Nat.mul_le_mul_right _ (le_divideHalfEven (spacing_pos n) hfull)

/-! ### The double of a natural number -/

/-- One is two to this many units. -/
def unitBits : Nat := 1074

theorem unitsPerOne_eq : unitsPerOne = 2 ^ unitBits := by decide +kernel

theorem unitsPerOne_pos : 0 < unitsPerOne := unitsPerOne_eq ▸ Nat.two_pow_pos _

/-- The places by which the units of a number are shifted to leave 53 bits. -/
def shiftOf (n : Nat) : Nat := n.log2 + 1022

/-- The mantissa that belongs to a number, counted in units. -/
def mantissaOf (n : Nat) : Nat := divideHalfEven (n * unitsPerOne) (2 ^ shiftOf n)

theorem shiftOf_add (n : Nat) : 52 + shiftOf n = n.log2 + unitBits := by
  simp only [shiftOf, unitBits]
  omega

theorem leastFull_mul (n : Nat) : leastFull * 2 ^ shiftOf n = 2 ^ n.log2 * unitsPerOne := by
  rw [unitsPerOne_eq, show leastFull = 2 ^ 52 from rfl, ← Nat.pow_add, ← Nat.pow_add, shiftOf_add]

theorem leastFull_le_mantissaOf {n : Nat} (h : n ≠ 0) : leastFull ≤ mantissaOf n := by
  refine le_divideHalfEven (Nat.two_pow_pos _) ?_
  rw [leastFull_mul]
  exact Nat.mul_le_mul_right _ (Nat.log2_self_le h)

theorem mantissaOf_le (n : Nat) : mantissaOf n ≤ mantissaLimit := by
  refine divideHalfEven_le (Nat.two_pow_pos _) ?_
  calc n * unitsPerOne ≤ 2 ^ (n.log2 + 1) * unitsPerOne :=
        Nat.mul_le_mul_right _ (Nat.le_of_lt Nat.lt_log2_self)
    _ = 2 * (leastFull * 2 ^ shiftOf n) := by rw [leastFull_mul, Nat.pow_succ', Nat.mul_assoc]
    _ = mantissaLimit * 2 ^ shiftOf n := (Nat.mul_assoc 2 leastFull _).symm

theorem mantissaOf_mul (n : Nat) : mantissaOf n * 2 ^ shiftOf n = nearest n * unitsPerOne := by
  rcases Nat.lt_or_ge n.log2 52 with hsmall | hlarge
  · -- the number has bits to spare, so the quotient is whole
    have hle : n ≤ mantissaLimit :=
      Nat.le_of_lt (Nat.lt_of_lt_of_le Nat.lt_log2_self
        (Nat.pow_le_pow_right Nat.two_pos (Nat.le_succ_of_le hsmall)))
    have hunits : n * unitsPerOne = n * 2 ^ (52 - n.log2) * 2 ^ shiftOf n := by
      have := shiftOf_add n
      rw [unitsPerOne_eq, Nat.mul_assoc, ← Nat.pow_add, show 52 - n.log2 + shiftOf n = unitBits by omega]
    rw [mantissaOf, nearest_of_le hle, hunits, divideHalfEven_mul_self _ (Nat.two_pow_pos _)]
  · have hshift : 2 ^ shiftOf n = spacing n * unitsPerOne := by
      have := shiftOf_add n
      rw [unitsPerOne_eq, spacing, ← Nat.pow_add, show n.log2 - 52 + unitBits = shiftOf n by omega]
    rw [mantissaOf, hshift, divideHalfEven_mul_right _ _ unitsPerOne_pos, nearest, Nat.mul_assoc]

theorem log2_mul_unitsPerOne {n : Nat} (h : n ≠ 0) :
    (n * unitsPerOne).log2 = n.log2 + unitBits := by
  have hne : n * unitsPerOne ≠ 0 := Nat.mul_ne_zero h (Nat.ne_of_gt unitsPerOne_pos)
  rw [Nat.log2_eq_iff hne, Nat.add_right_comm, Nat.pow_add, Nat.pow_add _ (n.log2 + 1), ← unitsPerOne_eq]
  exact ⟨Nat.mul_le_mul_right _ (Nat.log2_self_le h),
    Nat.mul_lt_mul_of_pos_right Nat.lt_log2_self unitsPerOne_pos⟩

theorem ofParts?_eq (negative : Bool) {mantissa shift : Nat}
    (h : mantissa < mantissaLimit ∧ shift ≤ 2045 ∧ (shift = 0 ∨ leastFull ≤ mantissa)) :
    ofParts? negative mantissa shift = some ⟨negative, mantissa, shift, h⟩ := dif_pos h

theorem ofRatio?_zero : ∀ negative, ofRatio? negative 0 1 = some (zero negative) := by decide +kernel

/-- A number of 64 bits is rounded to a double of its sign. -/
theorem exists_ofRatio?_one (negative : Bool) {n : Nat} (h : n < UInt64.size) :
    ∃ x, ofRatio? negative n 1 = some x ∧ x.negative = negative ∧
      x.magnitude = nearest n * unitsPerOne := by
  rcases Nat.eq_zero_or_pos n with rfl | hpos
  · refine ⟨zero negative, ofRatio?_zero negative, rfl, ?_⟩
    rw [nearest_of_le (Nat.zero_le _), magnitude, zero, Nat.zero_mul, Nat.zero_mul]
  · have hne : n ≠ 0 := Nat.ne_of_gt hpos
    have hlog : n.log2 < 64 := (Nat.log2_lt hne).mpr h
    have hshift : (n * unitsPerOne / 1).log2 - 52 = shiftOf n := by
      have := shiftOf_add n
      rw [Nat.div_one, log2_mul_unitsPerOne hne]
      omega
    have hbound : shiftOf n + 1 ≤ 2045 := by
      simp only [shiftOf]
      omega
    have hratio : ofRatio? negative n 1 =
        if mantissaOf n = mantissaLimit then ofParts? negative leastFull (shiftOf n + 1)
        else ofParts? negative (mantissaOf n) (shiftOf n) := by
      simp only [ofRatio?, hshift, Nat.one_mul, Nat.pow_eq, mantissaOf]
      rfl
    rw [hratio, ← mantissaOf_mul]
    split
    · next htop =>
      refine ⟨_, ofParts?_eq negative ⟨by decide, hbound, .inr (Nat.le_refl _)⟩, rfl, ?_⟩
      change leastFull * 2 ^ (shiftOf n + 1) = mantissaOf n * 2 ^ shiftOf n
      rw [htop, show mantissaLimit = leastFull * 2 from rfl, Nat.mul_assoc, ← Nat.pow_succ']
    · next htop =>
      have hlt : mantissaOf n < mantissaLimit := Nat.lt_of_le_of_ne (mantissaOf_le n) htop
      refine ⟨_, ofParts?_eq negative ⟨hlt, Nat.le_of_succ_le hbound,
        .inr (leastFull_le_mantissaOf hne)⟩, rfl, ?_⟩
      rw [magnitude, Nat.pow_eq]

/-! ### Integers -/

/-- The integer rounded to 53 bits. -/
def nearestInt (n : Int) : Int := if n < 0 then -(nearest n.natAbs : Int) else nearest n.natAbs

theorem natAbs_nearestInt (n : Int) : (nearestInt n).natAbs = nearest n.natAbs := by
  rw [nearestInt]
  split
  · rw [Int.natAbs_neg, Int.natAbs_natCast]
  · exact Int.natAbs_natCast _

theorem nearestInt_of_natAbs_le {n : Int} (h : n.natAbs ≤ mantissaLimit) : nearestInt n = n := by
  rw [nearestInt, nearest_of_le h]
  split <;> omega

/-- No other integer is rounded to one of fewer than 54 bits. -/
theorem nearestInt_ne_of_small {m n : Int} (hne : m ≠ n) (h : m.natAbs < mantissaLimit) :
    nearestInt m ≠ nearestInt n := by
  rw [nearestInt_of_natAbs_le (Nat.le_of_lt h)]
  rcases Nat.le_total n.natAbs mantissaLimit with hsmall | hlarge
  · rwa [nearestInt_of_natAbs_le hsmall]
  · intro heq
    have hnear := natAbs_nearestInt n
    rw [← heq] at hnear
    exact absurd (le_nearest_of_le hlarge) (Nat.not_le.mpr (hnear ▸ h))

theorem nearestInt_near (n : Int) : 2 * (nearestInt n - n).natAbs ≤ spacing n.natAbs := by
  have hnear := divideHalfEven_near n.natAbs (spacing_pos n.natAbs)
  change 2 * n.natAbs ≤ 2 * nearest n.natAbs + spacing n.natAbs ∧
    2 * nearest n.natAbs ≤ 2 * n.natAbs + spacing n.natAbs at hnear
  rw [nearestInt]
  split <;> omega

end Binary64

namespace Whole

open Binary64

variable (m n : Whole)

theorem natAbs_lt : n.val.natAbs < UInt64.size := by
  obtain ⟨hlow, hhigh⟩ := n.inRange
  rw [signedLimit] at hlow
  rw [UInt64.size] at hhigh ⊢
  omega

/-- An integer has a double, of its sign, that is the integer rounded to 53 bits. -/
theorem ofInt?_val : Binary64.ofInt? n.val = some n.toDouble ∧
    n.toDouble.negative = decide (n.val < 0) ∧
    n.toDouble.magnitude = nearest n.val.natAbs * unitsPerOne := by
  obtain ⟨x, hx, hparts⟩ := exists_ofRatio?_one (decide (n.val < 0)) n.natAbs_lt
  rw [toDouble, Binary64.ofInt?, hx]
  exact ⟨rfl, hparts⟩

theorem units_toDouble : n.toDouble.units = nearestInt n.val * unitsPerOne := by
  obtain ⟨_, hnegative, hmagnitude⟩ := n.ofInt?_val
  rw [units, hnegative, hmagnitude, nearestInt]
  by_cases h : n.val < 0
  · rw [if_pos (decide_eq_true h), if_pos h, Int.natCast_mul, Int.neg_mul]
  · rw [if_neg (mt of_decide_eq_true h), if_neg h, Int.natCast_mul]

theorem equals_toDouble_iff :
    m.toDouble.equals n.toDouble = true ↔ nearestInt m.val = nearestInt n.val := by
  have hpos : (unitsPerOne : Int) ≠ 0 := Int.natCast_ne_zero.mpr (Nat.ne_of_gt unitsPerOne_pos)
  rw [equals, beq_iff_eq, units_toDouble, units_toDouble, Int.mul_eq_mul_right_iff hpos]

/-- Integers that are rounded to the same one are close. -/
theorem nearestInt_ne_of_far (h : 2048 < (m.val - n.val).natAbs) :
    nearestInt m.val ≠ nearestInt n.val := by
  have hgap : ∀ k : Whole, spacing k.val.natAbs ≤ 2048 := by
    intro k
    rcases Nat.eq_zero_or_pos k.val.natAbs with hzero | hpos
    · rw [hzero]
      decide
    · have hlog := (Nat.log2_lt (k := 64) (Nat.ne_of_gt hpos)).mpr k.natAbs_lt
      have hplaces : k.val.natAbs.log2 - 52 ≤ 11 := by omega
      exact Nat.pow_le_pow_right Nat.two_pos hplaces
  have hm := nearestInt_near m.val
  have hn := nearestInt_near n.val
  have := hgap m
  have := hgap n
  omega

end Whole

end DataSchema
