import DataSchema.Pattern.Reader
import DataSchema.Proofs.Rewritten
import DataSchema.Proofs.Rounding

/-!
Integers under constants, listed values and distinct elements.

All three compare integers by their doubles, so integers are told apart exactly if they are different when
rounded to 53 bits (`validate_integers`). Any two are of which one has at most 53 bits, or which are not
close; above, neighbours are taken for equal (`neighbours_confused`).
-/

namespace DataSchema

open Binary64

namespace Json

/-- The value that is the integer. -/
def ofWhole (n : Whole) : Json := .number (.whole n)

theorem equivalent_ofWhole_iff (i j : Whole) :
    equivalent (ofWhole i) (ofWhole j) = true ↔ nearestInt i.val = nearestInt j.val :=
  i.equals_toDouble_iff j

theorem exists_equivalent_ofWhole_iff (is : List Whole) (j : Whole) :
    (∃ c ∈ is.map ofWhole, equivalent c (ofWhole j) = true) ↔
      ∃ i ∈ is, nearestInt i.val = nearestInt j.val := by
  simp only [← equivalent_ofWhole_iff]
  constructor
  · rintro ⟨c, hc, h⟩
    obtain ⟨i, hi, rfl⟩ := List.mem_map.mp hc
    exact ⟨i, hi, h⟩
  · rintro ⟨i, hi, h⟩
    exact ⟨_, List.mem_map_of_mem hi, h⟩

theorem pairwise_ofWhole_iff (ns : List Whole) :
    (ns.map ofWhole).Pairwise (fun x y => equivalent x y = false) ↔
      (ns.map fun n => nearestInt n.val).Nodup := by
  simp only [List.Nodup, List.pairwise_map, ← Bool.not_eq_true, equivalent_ofWhole_iff, ne_eq]

/-- No rule makes a number of a number. -/
theorem coerce?_number_ne {kind : Kind} {m : Number} {converted : Json}
    (h : coerce? kind (.number m) = some converted) (n : Number) : converted ≠ .number n := by
  rintro rfl
  cases kind with
  | string | object | array | number | integer => simp [coerce?, toNumber?] at h
  | boolean | null =>
    simp only [coerce?] at h
    repeat' split at h
    all_goals simp at h

end Json

namespace Schema

variable {o : Options} {listed : Bool} {s : Schema}

/-- Where an integer is compared with integers, it is compared as it is. -/
theorem equivalent_of_admitted {c j : Whole} {admitted : Json}
    (hlet : s.admit? o (.ofWhole j) = some admitted)
    (h : Json.equivalent (.ofWhole c) admitted = true) : nearestInt c.val = nearestInt j.val := by
  have hkept : admitted = .ofWhole j ∨ ∀ n, admitted ≠ .number n := by
    rw [admit?.eq_def] at hlet
    split at hlet
    · exact .inl (Option.some.inj hlet).symm
    · split at hlet
      · exact .inl (Option.some.inj hlet).symm
      · split at hlet
        · exact .inr (Json.coerce?_number_ne hlet)
        · cases hlet
  rcases hkept with rfl | hother
  · exact (Json.equivalent_ofWhole_iff c j).mp h
  · cases admitted with
    | number n => exact absurd rfl (hother n)
    | _ => simp [Json.ofWhole, Json.equivalent] at h

/-! ### Any schema -/

variable [Pattern.Engine]

section Refusing

variable {j : Whole}

theorem nearestInt_of_constant {i : Whole} (hconst : s.const = some (.ofWhole i))
    (h : (s.evaluate o listed (.ofWhole j)).passes = true) : nearestInt i.val = nearestInt j.val := by
  obtain ⟨admitted, hadmit, hown, -⟩ := exists_admitted_of_passes (by simp [Json.ofWhole]) h
  exact equivalent_of_admitted hadmit (((s.valueViolations_eq_nil _).mp hown).1 _ hconst)

theorem nearestInt_of_enumeration {is : List Whole} (henum : s.enum = some (is.map .ofWhole))
    (h : (s.evaluate o listed (.ofWhole j)).passes = true) :
    ∃ i ∈ is, nearestInt i.val = nearestInt j.val := by
  obtain ⟨admitted, hadmit, hown, -⟩ := exists_admitted_of_passes (by simp [Json.ofWhole]) h
  obtain ⟨c, hc, hequivalent⟩ := ((s.valueViolations_eq_nil _).mp hown).2 _ henum
  obtain ⟨i, hi, rfl⟩ := List.mem_map.mp hc
  exact ⟨i, hi, equivalent_of_admitted hadmit hequivalent⟩

theorem nodup_of_uniqueItems {ns : List Whole} (hunique : s.array.uniqueItems = true)
    (h : (s.evaluate o listed (.array (ns.map .ofWhole))).passes = true) :
    (ns.map fun n => nearestInt n.val).Nodup := by
  obtain ⟨admitted, hadmit, -, hcontent⟩ := exists_admitted_of_passes (by simp) h
  -- an array is not converted
  obtain rfl : admitted = .array (ns.map .ofWhole) := by
    rcases (admit?_eq_some hadmit).2 with heq | ⟨-, hscalar, -⟩
    · exact heq
    · cases hscalar
  exact (Json.pairwise_ofWhole_iff ns).mp ((evaluateContent_array hcontent).1.uniqueItems hunique)

end Refusing

/-! ### Schemas that ask nothing else -/

/-- Arrays must have no equal elements. -/
def distinct : Schema where
  array := { uniqueItems := true }

/-- A schema that names no kind judges the value as it is. -/
theorem passes_iff_ownHold (value : Json) (hkind : s.kind = none) (hs : s.hasCombination = false)
    (hnull : value ≠ .null) (hobject : ∀ members, value ≠ .object members)
    (hparts : ∀ t x, ¬ s.Part value t x) :
    (s.evaluate o listed value).passes = true ↔ s.OwnHold value := by
  have hadmit : s.admit? o value = some value := admit?_of_kind o (by simp [hkind])
  exact (judges_evaluate_of_no_parts listed hs (fun hv => hnull hv.1) hadmit hobject hparts).passes_iff

theorem passes_constant_iff (i j : Whole) :
    ((constant (.ofWhole i)).evaluate o listed (.ofWhole j)).passes = true ↔
      nearestInt i.val = nearestInt j.val := by
  rw [passes_iff_ownHold (.ofWhole j) rfl rfl nofun nofun nofun, ← Json.equivalent_ofWhole_iff]
  exact ⟨fun h => h.const _ rfl, fun h => ⟨nofun, by simpa [constant] using h, nofun,
    contentHold_of_no_facets rfl rfl rfl rfl rfl rfl⟩⟩

theorem passes_enumeration_iff (is : List Whole) (j : Whole) :
    ((enumeration (is.map .ofWhole)).evaluate o listed (.ofWhole j)).passes = true ↔
      ∃ i ∈ is, nearestInt i.val = nearestInt j.val := by
  rw [passes_iff_ownHold (.ofWhole j) rfl rfl nofun nofun nofun, ← Json.exists_equivalent_ofWhole_iff]
  exact ⟨fun h => h.enum _ rfl, fun h => ⟨nofun, nofun, by simpa [enumeration] using h,
    contentHold_of_no_facets rfl rfl rfl rfl rfl rfl⟩⟩

theorem passes_distinct_iff (ns : List Whole) :
    (distinct.evaluate o listed (.array (ns.map .ofWhole))).passes = true ↔
      (ns.map fun n => nearestInt n.val).Nodup := by
  have hparts : ∀ t x, ¬ distinct.Part (.array (ns.map .ofWhole)) t x := by
    rintro t x ⟨hitems, -⟩
    cases hitems
  rw [passes_iff_ownHold (.array _) rfl rfl nofun nofun hparts, ← Json.pairwise_ofWhole_iff]
  exact ⟨fun h => h.content.uniqueItems rfl, fun h => ⟨nofun, nofun, nofun, nofun, nofun, fun _ => h⟩⟩

end Schema

namespace Whole

variable {i j : Whole}

/-- Integers with the same double are close and have more than 53 bits. -/
theorem nearestInt_ne (hne : i ≠ j)
    (h : i.val.natAbs < mantissaLimit ∨ j.val.natAbs < mantissaLimit ∨ 2048 < (i.val - j.val).natAbs) :
    nearestInt i.val ≠ nearestInt j.val := by
  have hval : i.val ≠ j.val := fun heq => hne (by cases i; cases j; cases heq; rfl)
  rcases h with hi | hj | hfar
  · exact nearestInt_ne_of_small hval hi
  · exact (nearestInt_ne_of_small hval.symm hj).symm
  · exact i.nearestInt_ne_of_far j hfar

end Whole

namespace Validator

theorem exists_passes_iff [Pattern.Engine] {s : Schema} {o : Options} {value : Json} {p : Prop}
    (hcheck : ∀ strict, s.check strict = .ok ()) (htimeless : s.Timeless)
    (h : (s.evaluate o false value).passes = true ↔ p) :
    ∃ v, compile s o = .ok v ∧ (v.Passes value ↔ p) := by
  refine ⟨_, compile_of_check (hcheck o.strict), ?_⟩
  rw [passes_iff, and_iff_right (breaksOff_of_timeless htimeless value), ← Report.passes_iff, validate,
    Report.passes_ofOutcome, h]

/-- Under any policy, an integer passes a constant, or listed integers, and integers pass as distinct
elements, by what they are when rounded to 53 bits. Whatever else a schema says, integers that are
different when rounded are never confused, and integers that are far apart, or of which one has at most
53 bits, are different when rounded. -/
theorem validate_integers [Pattern.Engine] (o : Options) (i j : Whole) (is ns : List Whole) :
    (∃ v, compile (.constant (.ofWhole i)) o = .ok v ∧
      (v.Passes (.ofWhole j) ↔ nearestInt i.val = nearestInt j.val)) ∧
    (∃ v, compile (.enumeration (is.map .ofWhole)) o = .ok v ∧
      (v.Passes (.ofWhole j) ↔ ∃ i ∈ is, nearestInt i.val = nearestInt j.val)) ∧
    (∃ v, compile .distinct o = .ok v ∧
      (v.Passes (.array (ns.map .ofWhole)) ↔ (ns.map fun n => nearestInt n.val).Nodup)) ∧
    (∀ v : Validator,
      (v.schema.const = some (.ofWhole i) → (v.validate (.ofWhole j)).passes = true →
        nearestInt i.val = nearestInt j.val) ∧
      (v.schema.enum = some (is.map .ofWhole) → (v.validate (.ofWhole j)).passes = true →
        ∃ i ∈ is, nearestInt i.val = nearestInt j.val) ∧
      (v.schema.array.uniqueItems = true → (v.validate (.array (ns.map .ofWhole))).passes = true →
        (ns.map fun n => nearestInt n.val).Nodup)) ∧
    (i ≠ j → i.val.natAbs < mantissaLimit ∨ j.val.natAbs < mantissaLimit ∨
      2048 < (i.val - j.val).natAbs → nearestInt i.val ≠ nearestInt j.val) := by
  have htimeless : ∀ s : Schema, s.children = [] → s.text.format = none → s.Timeless := by
    intro s hs hformat
    exact Schema.of_allWithin 1 (by simp [Schema.allWithin, hs, hformat])
  refine ⟨exists_passes_iff (by rintro (_ | _) <;> rfl) (htimeless _ rfl rfl)
      (Schema.passes_constant_iff i j),
    exists_passes_iff (by rintro (_ | _) <;> rfl) (htimeless _ rfl rfl)
      (Schema.passes_enumeration_iff is j),
    exists_passes_iff (by rintro (_ | _) <;> rfl) (htimeless _ rfl rfl)
      (Schema.passes_distinct_iff ns), ?_, Whole.nearestInt_ne⟩
  intro v
  simp only [validate, Report.passes_ofOutcome]
  exact ⟨Schema.nearestInt_of_constant, Schema.nearestInt_of_enumeration, Schema.nodup_of_uniqueItems⟩

/-- `2 ^ 53 - 1`, all of whose 53 bits are set. -/
def belowTop : Whole := ⟨9007199254740991, by decide⟩

/-- `2 ^ 53`. -/
def top : Whole := ⟨9007199254740992, by decide⟩

/-- The least integer that is no double. -/
def aboveTop : Whole := ⟨9007199254740993, by decide⟩

/-- `2 ^ 53 - 1` and `2 ^ 53` are told apart. -/
theorem validate_belowTop :
    nearestInt belowTop.val ≠ nearestInt top.val ∧
      (∃ v, compile (.constant (.ofWhole belowTop)) {} = .ok v ∧
        (v.validate (.ofWhole top)).passes = false) ∧
      ∃ v, compile .distinct {} = .ok v ∧
        v.Passes (.array [.ofWhole belowTop, .ofWhole top]) := by
  obtain ⟨-, -, ⟨v, hv, hdistinct⟩, hany, hapart⟩ :=
    validate_integers {} belowTop top [] [belowTop, top]
  have hne := hapart (by decide) (.inl (by decide))
  have hcompiled : compile (.constant (.ofWhole belowTop)) {} = .ok ⟨_, {}, rfl⟩ := rfl
  refine ⟨hne, ⟨_, hcompiled, ?_⟩, v, hv, hdistinct.mpr (by simp [hne])⟩
  exact Bool.eq_false_iff.mpr fun hpasses => hne ((hany _).1 rfl hpasses)

/-- `2 ^ 53 + 1` is taken for `2 ^ 53`. -/
theorem neighbours_confused :
    top ≠ aboveTop ∧
      (∃ v, compile (.constant (.ofWhole top)) {} = .ok v ∧ v.Passes (.ofWhole aboveTop)) ∧
      (∃ v, compile (.enumeration [.ofWhole top]) {} = .ok v ∧ v.Passes (.ofWhole aboveTop)) ∧
      ∃ v, compile .distinct {} = .ok v ∧
        (v.validate (.array [.ofWhole top, .ofWhole aboveTop])).passes = false :=
  ⟨by decide, ⟨_, rfl, passes_iff.mpr ⟨by decide, by decide +kernel⟩⟩,
    ⟨_, rfl, passes_iff.mpr ⟨by decide, by decide +kernel⟩⟩, _, rfl, by decide +kernel⟩

end Validator

end DataSchema
