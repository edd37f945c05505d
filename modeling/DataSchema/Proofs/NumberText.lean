import Mathlib.Data.List.TakeDrop
import Mathlib.Data.List.TakeWhile
import DataSchema.Pattern.Reader
import DataSchema.Proofs.PathText
import DataSchema.Proofs.Rewritten
import DataSchema.Proofs.Rounding

/-!
Integers written as texts and read again.

An integer is written with all its digits. The text, with white space around it, is read again as the same
integer if that is a signed one of 64 bits; from `2 ^ 63` up it is read as the integer's double
(`validate_numeral`), which can be a different number (`validate_greatest`).
-/

namespace DataSchema

/-! ### Blanks -/

namespace Text

theorem isBlank_of_isDigit {c : Char} (h : c.isDigit = true) : isBlank c = false := by
  have hdigits : ∀ k : Fin 10, blankRanges.hasCode (48 + k.val) = false := by decide +kernel
  obtain ⟨hlow, hhigh⟩ : 48 ≤ c.toNat ∧ c.toNat ≤ 57 := Char.isDigit_iff_toNat.mp h
  have hcode := hdigits ⟨c.toNat - 48, by omega⟩
  rwa [Nat.add_sub_cancel' hlow] at hcode

theorem dropWhile_isBlank_eq_self {cs : List Char} (h : ∀ c ∈ cs, isBlank c = false) :
    cs.dropWhile isBlank = cs := by
  cases cs with
  | nil => rfl
  | cons c rest => exact List.dropWhile_cons_of_neg (by simp [h c List.mem_cons_self])

/-- White space around a text that has none is dropped. -/
theorem trim_padded {left right cs : List Char} (hleft : ∀ c ∈ left, isBlank c = true)
    (hright : ∀ c ∈ right, isBlank c = true) (h : ∀ c ∈ cs, isBlank c = false) :
    trim (left ++ cs ++ right) = cs := by
  have hreverse : ∀ c ∈ right.reverse, isBlank c = true := fun c hc =>
    hright c (List.mem_reverse.mp hc)
  have hback : ∀ c ∈ cs.reverse, isBlank c = false := fun c hc => h c (List.mem_reverse.mp hc)
  rw [trim, List.append_assoc, List.dropWhile_append_of_pos hleft]
  cases cs with
  | nil =>
    rw [List.nil_append, List.dropWhile_eq_nil_iff.mpr hright]
    rfl
  | cons c rest =>
    have hfirst : ¬ isBlank c = true := by simp [h c List.mem_cons_self]
    rw [List.cons_append, List.dropWhile_cons_of_neg hfirst, ← List.cons_append, List.reverse_append,
      List.dropWhile_append_of_pos hreverse, dropWhile_isBlank_eq_self hback, List.reverse_reverse]

end Text

/-! ### Numerals -/

namespace Numeral

section Digits

variable {ds : List Char} (hne : ds ≠ []) (hall : ∀ c ∈ ds, c.isDigit = true)

include hall

/-- Digits begin with no sign. -/
theorem splitSign_digits : splitSign ds = (false, ds) := by
  rw [splitSign.eq_def]
  split
  · next rest => cases hall _ List.mem_cons_self
  · next rest => cases hall _ List.mem_cons_self
  · rfl

include hne

theorem integer?_digits : integer? ds = some (digitsValue ds : Int) := by
  have hplain : ¬(ds.isEmpty = true ∨ ¬ds.all Char.isDigit) := by simpa [hne] using hall
  rw [integer?, splitSign_digits hall]
  simp only [if_neg hplain]
  rfl

theorem integer?_minus : integer? ('-' :: ds) = some (-(digitsValue ds : Int)) := by
  have hplain : ¬(ds.isEmpty = true ∨ ¬ds.all Char.isDigit) := by simpa [hne] using hall
  rw [integer?]
  simp only [splitSign, if_neg hplain]
  rfl

/-- Digits are a decimal without fraction and exponent. -/
theorem double?_digits : double? ds = Binary64.ofDecimal? false (digitsValue ds) 0 := by
  have hspan : ds.span Char.isDigit = (ds, []) := by
    rw [List.span_eq_takeWhile_dropWhile, List.takeWhile_eq_self_iff.mpr hall,
      List.dropWhile_eq_nil_iff.mpr hall]
  have hsome : ¬(ds.isEmpty = true ∧ ([] : List Char).isEmpty = true) := by simp [hne]
  rw [double?, splitSign_digits hall]
  simp only [hspan, if_neg hsome, exponent?, List.append_nil]
  rfl

end Digits

theorem toString_digits (m : Nat) :
    (toString m).toList ≠ [] ∧ (∀ c ∈ (toString m).toList, c.isDigit = true) ∧
      digitsValue (toString m).toList = m :=
  ⟨Path.toString_toList_ne_nil m, fun _ => Path.isDigit_of_mem_toString, Path.foldl_toString m⟩

theorem integer?_toString : ∀ n : Int, integer? (toString n).toList = some n
  | .ofNat m => by
    obtain ⟨hne, hall, hvalue⟩ := toString_digits m
    change integer? (toString m).toList = some (m : Int)
    rw [integer?_digits hne hall, hvalue]
  | .negSucc m => by
    obtain ⟨hne, hall, hvalue⟩ := toString_digits (m + 1)
    change integer? ("-" ++ toString (m + 1)).toList = some (-(m + 1 : Nat) : Int)
    rw [String.toList_append]
    exact (integer?_minus hne hall).trans (by rw [hvalue])

theorem double?_toString (m : Nat) : double? (toString m).toList = Binary64.ofDecimal? false m 0 := by
  obtain ⟨hne, hall, hvalue⟩ := toString_digits m
  rw [double?_digits hne hall, hvalue]

theorem isBlank_toString : ∀ n : Int, ∀ c ∈ (toString n).toList, Text.isBlank c = false
  | .ofNat m, c, hc => Text.isBlank_of_isDigit (Path.isDigit_of_mem_toString (i := m) hc)
  | .negSucc m, c, hc => by
    change c ∈ ("-" ++ toString (m + 1)).toList at hc
    rw [String.toList_append] at hc
    rcases List.mem_cons.mp hc with rfl | hdigit
    · decide +kernel
    · exact Text.isBlank_of_isDigit (Path.isDigit_of_mem_toString (i := m + 1) hdigit)

end Numeral

/-! ### Doubles of integers -/

namespace Whole

variable (n : Whole)

theorem ofInt?_self : ofInt? n.val = some n := dif_pos n.inRange

theorem isIntegral_toDouble : n.toDouble.isIntegral = true := by
  obtain ⟨-, -, hmagnitude⟩ := n.ofInt?_val
  rw [Binary64.isIntegral, Binary64.toInt?, hmagnitude, Nat.mul_mod_left, if_pos rfl]
  rfl

/-- The decimal of an integer without sign is its double. -/
theorem ofDecimal?_natAbs (h : 0 ≤ n.val) :
    Binary64.ofDecimal? false n.val.natAbs 0 = some n.toDouble := by
  obtain ⟨hdouble, -⟩ := n.ofInt?_val
  rw [Binary64.ofInt?, decide_eq_false (Int.not_lt.mpr h)] at hdouble
  rw [← hdouble, Binary64.ofDecimal?]
  split
  · next hzero => rw [hzero, Binary64.ofRatio?_zero]
  · rw [if_neg (by decide), if_neg (by omega), if_pos (Int.le_refl 0)]
    exact congrArg (Binary64.ofRatio? false · 1) (Nat.mul_one _)

/-- What the text of the integer is read as: the integer if it is a signed one, else its double. -/
def reread : Json := if n.val < signedLimit then .number (.whole n) else .ofDouble n.toDouble

end Whole

namespace Json

variable (n : Whole) {left right : List Char}

theorem numberOfText?_padded (hleft : ∀ c ∈ left, Text.isBlank c = true)
    (hright : ∀ c ∈ right, Text.isBlank c = true) :
    numberOfText? (String.ofList (left ++ (toString n.val).toList ++ right)) = some n.reread := by
  have htrim := Text.trim_padded hleft hright (Numeral.isBlank_toString n.val)
  rw [numberOfText?, String.toList_ofList, htrim, Numeral.integer?_toString, Whole.reread]
  by_cases h : n.val < Whole.signedLimit
  · have hsigned : (some n.val).filter (fun m : Int => m < Whole.signedLimit) = some n.val :=
      if_pos (decide_eq_true h)
    rw [hsigned, Option.bind_some, n.ofInt?_self, if_pos h]
  · have hunsigned : (some n.val).filter (fun m : Int => m < Whole.signedLimit) = none :=
      if_neg (by rwa [decide_eq_true_eq])
    have hnonneg : 0 ≤ n.val := by omega
    -- without a sign, what is left of the text are digits
    have htext : (toString n.val).toList = (toString n.val.natAbs).toList := by
      rw [show toString n.val = toString (n.val.natAbs : Int) by rw [Int.natAbs_of_nonneg hnonneg]]
      rfl
    rw [hunsigned, htext, Numeral.double?_toString, n.ofDecimal?_natAbs hnonneg, if_neg h]
    rfl

theorem isInteger_reread : n.reread.isInteger = true := by
  rw [Whole.reread]
  split
  · rfl
  · exact n.isIntegral_toDouble

/-- Both kinds of numbers read the text in the same way. -/
theorem coerce?_padded {kind : Kind} (hkind : kind = .number ∨ kind = .integer)
    (hleft : ∀ c ∈ left, Text.isBlank c = true) (hright : ∀ c ∈ right, Text.isBlank c = true) :
    coerce? kind (.string (String.ofList (left ++ (toString n.val).toList ++ right))) =
      some n.reread := by
  rcases hkind with rfl | rfl
  · rw [coerce?, toNumber?, numberOfText?_padded n hleft hright]
  · rw [coerce?, toNumber?, numberOfText?_padded n hleft hright, Option.filter,
      if_pos (isInteger_reread n)]

end Json

/-! ### Validators -/

namespace Schema

/-- A scalar that is converted to the kind is left as what it is converted to. -/
theorem evaluate_converted [Pattern.Engine] {o : Options} (listed : Bool) {kind : Kind}
    {value converted : Json} (hcoerces : o.coerceTypes = true) (hother : value.hasKind kind = false)
    (h : value.coerce? kind = some converted) :
    (ofKind kind).evaluate o listed value = .ok converted := by
  have hadmit : (ofKind kind).admit? o value = some converted := by
    simp [admit?, ofKind, hother, hcoerces, h]
  obtain ⟨-, hscalar, hkind⟩ := Json.coerce?_eq_some h
  have hjudged := judges_evaluate_of_no_parts listed rfl (by simp [ofKind]) hadmit
    (by rintro _ rfl; cases hscalar) fun _ _ => not_part_ofKind
  exact hjudged.eq_ok (ownHold_ofKind_iff.mpr hkind)

end Schema

namespace Validator

theorem validate_converted [Pattern.Engine] {o : Options} {kind : Kind} {value converted : Json}
    (hcoerces : o.coerceTypes = true) (hother : value.hasKind kind = false)
    (h : value.coerce? kind = some converted) :
    ∃ v, compile (.ofKind kind) o = .ok v ∧ v.validate? value = some ⟨converted, []⟩ := by
  have hcheck : ∀ strict, (Schema.ofKind kind).check strict = .ok () := by rintro (_ | _) <;> rfl
  have htimeless : (Schema.ofKind kind).Timeless :=
    Schema.of_allWithin 1 (by cases kind <;> decide)
  refine ⟨_, compile_of_check (hcheck o.strict),
    validate?_eq_some.mpr ⟨breaksOff_of_timeless htimeless value, ?_⟩⟩
  rw [validate, Schema.evaluate_converted false hcoerces hother h]
  simp [Report.ofOutcome, Outcome.ok]

/-- Where types are converted, an integer is written as the text of its digits. The text, with white space
around it, is read as a number and as an integer alike: as the same integer exactly if that is a signed
one, and otherwise as its double, which is the integer rounded to 53 bits. -/
theorem validate_numeral [Pattern.Engine] (n : Whole) {o : Options} (hcoerces : o.coerceTypes = true)
    {kind : Kind} (hkind : kind = .number ∨ kind = .integer) {left right : List Char}
    (hleft : ∀ c ∈ left, Text.isBlank c = true) (hright : ∀ c ∈ right, Text.isBlank c = true) :
    let padded : Json := .string (String.ofList (left ++ (toString n.val).toList ++ right))
    Json.coerce? .string (.number (.whole n)) = some (.string (toString n.val)) ∧
      (∃ v, compile (.ofKind .string) o = .ok v ∧
        v.validate? (.number (.whole n)) = some ⟨.string (toString n.val), []⟩) ∧
      Json.coerce? kind padded = some n.reread ∧
      (∃ v, compile (.ofKind kind) o = .ok v ∧ v.validate? padded = some ⟨n.reread, []⟩) ∧
      (n.reread = .number (.whole n) ↔ n.val < Whole.signedLimit) ∧
      (¬ n.val < Whole.signedLimit → n.reread = .ofDouble n.toDouble ∧
        n.toDouble.units = Binary64.nearestInt n.val * Binary64.unitsPerOne) := by
  intro padded
  have hwritten : Json.coerce? .string (.number (.whole n)) = some (.string (toString n.val)) := rfl
  have hread : Json.coerce? kind padded = some n.reread := Json.coerce?_padded n hkind hleft hright
  have hother : padded.hasKind kind = false := by rcases hkind with rfl | rfl <;> rfl
  refine ⟨hwritten, validate_converted hcoerces rfl hwritten, hread,
    validate_converted hcoerces hother hread, ?_, fun h => ⟨if_neg h, n.units_toDouble⟩⟩
  rw [Whole.reread]
  by_cases h : n.val < Whole.signedLimit
  · exact iff_of_true (if_pos h) h
  · refine iff_of_false ?_ h
    rw [if_neg h]
    nofun

/-- `2 ^ 63 - 1`. -/
def greatestSigned : Whole := ⟨9223372036854775807, by decide⟩

/-- `2 ^ 64 - 1`. -/
def greatest : Whole := ⟨18446744073709551615, by decide⟩

/-- The greatest signed integer is read again, also between blanks. -/
theorem validate_greatestSigned :
    ∃ v, compile (.ofKind .integer) { coerceTypes := true } = .ok v ∧
      v.validate? (.string (String.ofList
        (['\t', ' '] ++ (toString greatestSigned.val).toList ++ ['\n']))) =
          some ⟨.number (.whole greatestSigned), []⟩ := by
  have htab : Text.isBlank '\t' = true := by decide +kernel
  have hspace : Text.isBlank ' ' = true := by decide +kernel
  have hline : Text.isBlank '\n' = true := by decide +kernel
  have hleft : ∀ c ∈ ['\t', ' '], Text.isBlank c = true := by simp [htab, hspace]
  have hright : ∀ c ∈ ['\n'], Text.isBlank c = true := by simp [hline]
  have hcoerces : ({ coerceTypes := true } : Options).coerceTypes = true := rfl
  obtain ⟨-, -, -, hread, hsame, -⟩ :=
    validate_numeral greatestSigned hcoerces (.inr rfl) hleft hright
  rwa [hsame.mpr (by decide)] at hread

/-- The text of `2 ^ 64 - 1` is read as the double `2 ^ 64`. -/
theorem validate_greatest :
    Json.coerce? .string (.number (.whole greatest)) = some (.string "18446744073709551615") ∧
      Json.coerce? .number (.string "18446744073709551615") = some (.ofDouble greatest.toDouble) ∧
      Json.coerce? .integer (.string "18446744073709551615") = some (.ofDouble greatest.toDouble) ∧
      Json.ofDouble greatest.toDouble ≠ .number (.whole greatest) ∧
      greatest.toDouble.units = 18446744073709551616 * Binary64.unitsPerOne ∧
      ∃ v, compile (.ofKind .number) { coerceTypes := true } = .ok v ∧
        v.validate? (.string "18446744073709551615") = some ⟨.ofDouble greatest.toDouble, []⟩ := by
  have hread : ∀ kind, kind = .number ∨ kind = .integer →
      Json.coerce? kind (.string "18446744073709551615") = some (.ofDouble greatest.toDouble) := by
    intro kind hkind
    have hbare := Json.coerce?_padded greatest hkind (List.forall_mem_nil _) (List.forall_mem_nil _)
    rwa [List.nil_append, List.append_nil, String.ofList_toList] at hbare
  have hround : Binary64.nearestInt greatest.val = 18446744073709551616 := by decide +kernel
  refine ⟨rfl, hread .number (.inl rfl), hread .integer (.inr rfl), nofun, ?_,
    validate_converted rfl rfl (hread .number (.inl rfl))⟩
  rw [greatest.units_toDouble, hround]

end Validator

end DataSchema
