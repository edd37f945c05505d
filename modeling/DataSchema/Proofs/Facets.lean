import DataSchema.Validation.Facets

/-!
What the facets of a schema ask of a value.

Each group of facets has a reading as a proposition, a field for each facet, and a lemma that the list of
violations is empty exactly if the reading holds. Bounds are read on the exact values of doubles, which
`Binary64.units` counts.
-/

namespace DataSchema

theorem brokenFacet_eq_nil {α : Type} (broken : α → Bool) (violation : α → Violation)
    (facet : Option α) :
    brokenFacet broken violation facet = [] ↔ ∀ x ∈ facet, broken x = false := by
  cases facet with
  | none => simp [brokenFacet]
  | some x => cases h : broken x <;> simp [brokenFacet, h]

/-! ### Strings -/

structure TextFacets.Hold [Pattern.Engine] (f : TextFacets) (text : String) : Prop where
  minLength : ∀ n ∈ f.minLength, n.toNat ≤ text.length
  maxLength : ∀ n ∈ f.maxLength, text.length ≤ n.toNat
  pattern : ∀ source ∈ f.pattern, Pattern.accepts source text = true
  /-- A format of no known name asks nothing. -/
  format : ∀ name ∈ f.format, ∀ format ∈ Format.ofName? name, format.accepts text = true

theorem Format.refuses_eq_false (name text : String) :
    Format.refuses name text = false ↔
      ∀ format ∈ Format.ofName? name, format.accepts text = true := by
  cases h : Format.ofName? name <;> simp [Format.refuses, h]

theorem TextFacets.violations_eq_nil [Pattern.Engine] (f : TextFacets) (text : String) :
    f.violations text = [] ↔ f.Hold text := by
  simp only [violations, List.append_eq_nil_iff, brokenFacet_eq_nil, decide_eq_false_iff_not,
    Nat.not_lt, Bool.not_eq_false', Format.refuses_eq_false]
  constructor
  · rintro ⟨⟨⟨hmin, hmax⟩, hpattern⟩, hformat⟩
    exact ⟨hmin, hmax, hpattern, hformat⟩
  · rintro ⟨hmin, hmax, hpattern, hformat⟩
    exact ⟨⟨⟨hmin, hmax⟩, hpattern⟩, hformat⟩

/-! ### Texts at which a check breaks off -/

namespace Format

theorem isDigit_of_twoDigits? {a b : Char} {n : Nat} (h : twoDigits? a b = some n) :
    a.isDigit = true ∧ b.isDigit = true := by
  rw [twoDigits?] at h
  split at h
  · assumption
  · cases h

theorem utf8Size_of_isDigit {c : Char} (h : c.isDigit = true) : c.utf8Size = 1 := by
  have hle : c.val ≤ 57 := by
    rw [Char.isDigit, Bool.and_eq_true, decide_eq_true_iff, decide_eq_true_iff] at h
    exact h.2
  exact Char.utf8Size_eq_one_iff.mpr (UInt32.le_trans hle (by decide))

/-- A time has its first eight characters in one byte each. -/
theorem startsAt_of_isTime {text : List Char} (h : isTime text = true) : startsAt 8 text = true := by
  rw [isTime, Option.any_eq_true] at h
  obtain ⟨rest, hrest, -⟩ := h
  rw [afterTime?.eq_def] at hrest
  split at hrest
  · split at hrest
    · next hh hm hs =>
      obtain ⟨hh1, hh2⟩ := isDigit_of_twoDigits? hh
      obtain ⟨hm1, hm2⟩ := isDigit_of_twoDigits? hm
      obtain ⟨hs1, hs2⟩ := isDigit_of_twoDigits? hs
      have hcolon : ':'.utf8Size = 1 := by decide
      simp [startsAt, hcolon, utf8Size_of_isDigit, hh1, hh2, hm1, hm2, hs1, hs2]
    · cases hrest
  · cases hrest

/-- No format accepts a text at which its check breaks off. -/
theorem accepts_of_breaksOff {format : Format} {text : String} (h : format.breaksOff text = true) :
    format.accepts text = false := by
  cases format with
  | time =>
    refine Bool.eq_false_iff.mpr fun htime => ?_
    simp [breaksOff, timeBreaksOff, startsAt_of_isTime htime] at h
  | _ => cases h

/-- A time whose last digit, the Arabic-Indic zero, takes two bytes. -/
def arabicTime : String := "10:30:0\u0660"

example : Format.time.breaksOff arabicTime = true := by decide

end Format

/-- A text at which the check breaks off is not one that the facets let pass. -/
theorem TextFacets.violations_of_breaksOff [Pattern.Engine] {f : TextFacets} {text : String}
    (h : f.breaksOff text = true) : f.violations text ≠ [] := by
  rw [breaksOff, Option.any_eq_true] at h
  obtain ⟨format, hformat, hbreaks⟩ := h
  obtain ⟨name, hname, hknown⟩ := Option.bind_eq_some_iff.mp hformat
  intro hnil
  have haccepts := ((f.violations_eq_nil text).mp hnil).format name hname format hknown
  rw [Format.accepts_of_breaksOff hbreaks] at haccepts
  cases haccepts

/-! ### Numbers -/

theorem Binary64.less_eq_false (x y : Binary64) : x.less y = false ↔ y.units ≤ x.units := by
  rw [less, decide_eq_false_iff_not, Int.not_lt]

theorem Binary64.less_eq_true (x y : Binary64) : x.less y = true ↔ x.units < y.units :=
  decide_eq_true_iff

/-- The quotient by a positive step is whole up to the tolerance, if it is a double at all. -/
def Binary64.OnStep (x step : Binary64) : Prop :=
  0 < step.units → ∀ quotient ∈ x.div? step, quotient.distanceToWhole ≤ tolerance.magnitude

theorem Binary64.offStep_eq_false (x step : Binary64) : x.offStep step = false ↔ x.OnStep step := by
  have hzero : (zero false).units = 0 := by rw [units, magnitude, zero]; simp
  rw [offStep, OnStep, Bool.and_eq_false_iff, less_eq_false, hzero]
  cases h : x.div? step with
  | none => simp
  | some quotient => simp; omega

structure NumberFacets.Hold (f : NumberFacets) (x : Binary64) : Prop where
  minimum : ∀ bound ∈ f.minimum, bound.units ≤ x.units
  maximum : ∀ bound ∈ f.maximum, x.units ≤ bound.units
  exclusiveMinimum : ∀ bound ∈ f.exclusiveMinimum, bound.units < x.units
  exclusiveMaximum : ∀ bound ∈ f.exclusiveMaximum, x.units < bound.units
  multipleOf : ∀ step ∈ f.multipleOf, x.OnStep step

theorem NumberFacets.violations_eq_nil (f : NumberFacets) (x : Binary64) :
    f.violations x = [] ↔ f.Hold x := by
  simp only [violations, List.append_eq_nil_iff, brokenFacet_eq_nil, Binary64.less_eq_false,
    Bool.not_eq_false', Binary64.less_eq_true, Binary64.offStep_eq_false]
  constructor
  · rintro ⟨⟨⟨⟨hmin, hmax⟩, hxmin⟩, hxmax⟩, hstep⟩
    exact ⟨hmin, hmax, hxmin, hxmax, hstep⟩
  · rintro ⟨hmin, hmax, hxmin, hxmax, hstep⟩
    exact ⟨⟨⟨⟨hmin, hmax⟩, hxmin⟩, hxmax⟩, hstep⟩

/-! ### Arrays -/

theorem Json.duplicate?_eq_none (items : List Json) :
    duplicate? items = none ↔ items.Pairwise fun x y => equivalent x y = false := by
  induction items with
  | nil => simp [duplicate?]
  | cons x rest ih =>
    rw [duplicate?, List.pairwise_cons, ← ih]
    cases duplicate? rest with
    | none => simp [List.findIdx?_eq_none_iff]
    | some places => simp

structure ArrayFacets.Hold (f : ArrayFacets) (items : List Json) : Prop where
  minItems : ∀ n ∈ f.minItems, n.toNat ≤ items.length
  maxItems : ∀ n ∈ f.maxItems, items.length ≤ n.toNat
  uniqueItems : f.uniqueItems = true → items.Pairwise fun x y => Json.equivalent x y = false

theorem ArrayFacets.violations_eq_nil (f : ArrayFacets) (items : List Json) :
    f.violations items = [] ↔ f.Hold items := by
  have hhold : f.Hold items ↔ ((∀ n ∈ f.minItems, n.toNat ≤ items.length) ∧
      ∀ n ∈ f.maxItems, items.length ≤ n.toNat) ∧
        (f.uniqueItems = true → Json.duplicate? items = none) := by
    rw [Json.duplicate?_eq_none]
    exact ⟨fun h => ⟨⟨h.minItems, h.maxItems⟩, h.uniqueItems⟩, fun h => ⟨h.1.1, h.1.2, h.2⟩⟩
  simp only [hhold, violations, List.append_eq_nil_iff, brokenFacet_eq_nil, decide_eq_false_iff_not,
    Nat.not_lt]
  refine and_congr_right fun _ => ?_
  cases Json.duplicate? items <;> cases f.uniqueItems <;> simp

/-! ### Objects -/

structure ObjectFacets.Hold (f : ObjectFacets) (members : List (String × Json)) : Prop where
  minProperties : ∀ n ∈ f.minProperties, n.toNat ≤ members.length
  maxProperties : ∀ n ∈ f.maxProperties, members.length ≤ n.toNat

theorem ObjectFacets.violations_eq_nil (f : ObjectFacets) (members : List (String × Json)) :
    f.violations members = [] ↔ f.Hold members := by
  simp only [violations, List.append_eq_nil_iff, brokenFacet_eq_nil, decide_eq_false_iff_not,
    Nat.not_lt]
  exact ⟨fun ⟨hmin, hmax⟩ => ⟨hmin, hmax⟩, fun ⟨hmin, hmax⟩ => ⟨hmin, hmax⟩⟩

/-- Only the number of members counts. -/
theorem ObjectFacets.hold_congr {f : ObjectFacets} {members others : List (String × Json)}
    (h : members.length = others.length) : f.Hold members ↔ f.Hold others := by
  simp only [← f.violations_eq_nil, violations, h]

namespace Schema

variable [Pattern.Engine]

/-- What a schema asks of the keys of an object: required names are there, the number of members is
within its bounds, and a closed schema has a property or a pattern for every key. -/
structure KeysHold (s : Schema) (members : List (String × Json)) : Prop where
  required : ∀ name ∈ s.requiredNames, Entries.has members name = true
  counts : s.object.Hold members
  closed : s.isOpen = false → ∀ e ∈ members, s.isExtra e.1 = false

theorem keyViolations_eq_nil (s : Schema) (members : List (String × Json)) :
    s.keyViolations members = [] ↔ s.KeysHold members := by
  have hclosed : (if s.isOpen then [] else
      (members.filter fun e => s.isExtra e.1).map fun _ => Violation.additionalProperties) = [] ↔
      (s.isOpen = false → ∀ e ∈ members, s.isExtra e.1 = false) := by
    cases s.isOpen <;> simp [List.filter_eq_nil_iff]
  simp only [keyViolations, List.append_eq_nil_iff, List.map_eq_nil_iff, List.filter_eq_nil_iff,
    ObjectFacets.violations_eq_nil, hclosed, Bool.not_eq_true', Bool.not_eq_false]
  constructor
  · rintro ⟨⟨hrequired, hcounts⟩, hc⟩
    exact ⟨hrequired, hcounts, hc⟩
  · rintro ⟨hrequired, hcounts, hc⟩
    exact ⟨⟨hrequired, hcounts⟩, hc⟩

omit [Pattern.Engine] in
theorem valueViolations_eq_nil (s : Schema) (value : Json) :
    s.valueViolations value = [] ↔
      (∀ c ∈ s.const, Json.equivalent c value = true) ∧
        ∀ cs ∈ s.enum, ∃ c ∈ cs, Json.equivalent c value = true := by
  simp only [valueViolations, List.append_eq_nil_iff, brokenFacet_eq_nil, Bool.not_eq_false',
    List.any_eq_true]

end Schema

end DataSchema
