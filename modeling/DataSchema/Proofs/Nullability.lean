import DataSchema.Pattern.Reader
import DataSchema.Proofs.Acceptance
import DataSchema.Proofs.Checking
import DataSchema.Schema.Combination

/-!
Making a schema take null.

A schema that takes null by a flag differs from the one without it in null alone
(`Schema.succeeds_withNullable`). The flag is not set where the schema names null already, itself or in a
branch of a union (`Schema.MentionsNull`). To name null in one place is not to take it, since the kind, the
constant and the listed values must all fit; so null is refused still by a schema that names it and refuses
it (`Validator.validate_toNullable`).
-/

namespace DataSchema

namespace Json

theorem isNull_iff {value : Json} : value.isNull = true ↔ value = .null := by
  cases value <;> simp [isNull]

theorem hasKind_null {kind : Kind} : Json.null.hasKind kind = true ↔ kind = .null := by
  cases kind <;> simp [hasKind, isInteger]

theorem equivalent_null {value : Json} : equivalent value .null = true ↔ value = .null := by
  cases value <;> simp [equivalent]

end Json

namespace Schema

variable {s : Schema} {o : Options}

/-! ### Naming null -/

/-- The schema lets null through, or null is its kind, its constant or one of the listed values. -/
def NamesNull (s : Schema) : Prop :=
  s.nullable = true ∨ s.kind = some .null ∨ s.const = some .null ∨ ∃ cs ∈ s.enum, Json.null ∈ cs

/-- The schema or a branch of one of its unions names null. -/
def MentionsNull (s : Schema) : Prop :=
  s.NamesNull ∨ (∃ ts ∈ s.oneOf, ∃ t ∈ ts, t.NamesNull) ∨ ∃ ts ∈ s.anyOf, ∃ t ∈ ts, t.NamesNull

/-- Kind, constant and listed values all leave room for null. -/
structure FitsNull (s : Schema) : Prop where
  kind : ∀ kind ∈ s.kind, kind = .null
  const : ∀ c ∈ s.const, c = .null
  enum : ∀ cs ∈ s.enum, Json.null ∈ cs

theorem acceptsNull_iff : s.acceptsNull = true ↔ s.NamesNull := by
  simp [acceptsNull, NamesNull, Option.any_eq_true, Json.isNull_iff, or_assoc]

theorem admitsNull_iff : s.admitsNull = true ↔ s.MentionsNull := by
  simp [admitsNull, MentionsNull, acceptsNull_iff, Option.any_eq_true, or_assoc]

/-! ### The flag -/

variable [Pattern.Engine]

theorem check_withNullable (b : Bool) {strict : Bool} (h : s.check strict = .ok ()) :
    { s with nullable := b }.check strict = .ok () := by
  obtain ⟨⟨hfacets, hdefaults, hpatterns⟩, hchildren⟩ := (check_eq_ok_iff s).mp h
  rw [forall_child_iff] at hchildren
  exact (check_eq_ok_iff _).mpr ⟨⟨hfacets, hdefaults, hpatterns⟩, forall_child_iff.mpr hchildren⟩

theorem check_toNullable {strict : Bool} (h : s.check strict = .ok ()) :
    s.toNullable.check strict = .ok () := by
  rw [toNullable]
  split
  · exact h
  · exact check_withNullable true h

/-- Whether another value than null passes does not depend on the flag, under any policy. -/
theorem succeeds_withNullable (o : Options) (listed b : Bool) {value : Json} (h : value ≠ .null) :
    ({ s with nullable := b }.run o listed value).Succeeds ↔ (s.run o listed value).Succeeds := by
  have hnull : ∀ b : Bool, ¬ (value = .null ∧ b = true) := fun _ hnull => h hnull.1
  cases hkind : s.admit? o value with
  | none =>
    have hkind' : { s with nullable := b }.admit? o value = none := hkind
    -- the message names the flag, but there is one in both cases
    have hbroken : ∀ vs, (Run.broken value vs).Succeeds ↔ vs = [] := fun vs =>
      Run.clears_true.symm.trans (Run.judges_broken true value vs).clears_iff
    rw [run_refused (hnull _) hkind, run_refused (hnull _) hkind', hbroken, hbroken, kindViolations,
      kindViolations, List.map_eq_nil_iff, List.map_eq_nil_iff]
  | some admitted =>
    have hkind' : { s with nullable := b }.admit? o value = some admitted := hkind
    rw [run_admitted (hnull _) hkind, run_admitted (hnull _) hkind']
    rfl

theorem succeeds_toNullable (o : Options) (listed : Bool) {value : Json} (h : value ≠ .null) :
    (s.toNullable.run o listed value).Succeeds ↔ (s.run o listed value).Succeeds := by
  rw [toNullable]
  split
  · rfl
  · exact succeeds_withNullable o listed true h

/-! ### Null -/

theorem clears_null_toNullable :
    s.toNullable.Clears o .null ↔ (s.MentionsNull → s.Clears o .null) := by
  rw [toNullable]
  split
  · next hadmits => exact ⟨fun h _ => h, fun h => h (admitsNull_iff.mp hadmits)⟩
  · next hadmits =>
    refine iff_of_true ?_ fun hmentions => absurd (admitsNull_iff.mpr hmentions) hadmits
    exact (succeeds_run_iff o _ false .null).mpr (.inl ⟨rfl, rfl⟩)

/-- Without combinations null is taken by the flag, or where nothing else is in its way. -/
theorem ReadsParts.null_iff {A : Schema → Json → Prop} (hA : ReadsParts A)
    (hcombined : s.hasCombination = false) : A s .null ↔ s.nullable = true ∨ s.FitsNull := by
  have hparts : ∀ t x, ¬ s.Part .null t x := fun t x hpart => nomatch hpart
  have hown : s.OwnHold .null ↔ s.FitsNull := by
    constructor
    · rintro ⟨hkind, hconst, henum, -⟩
      simp only [Json.hasKind_null, Json.equivalent_null, exists_eq_right] at hkind hconst henum
      exact ⟨hkind, hconst, henum⟩
    · rintro ⟨hkind, hconst, henum⟩
      refine ⟨?_, ?_, ?_, trivial⟩
      · simpa only [Json.hasKind_null] using hkind
      · simpa only [Json.equivalent_null] using hconst
      · simpa only [Json.equivalent_null, exists_eq_right] using henum
  simp [hA hcombined, hparts, hown]

end Schema

namespace Validator

/-- Where a schema compiles, so does the one that is made to take null, and the same values other than null
pass it. Null passes it unless the schema mentions null and refuses it; without combinations these are the
schemas that name null in one place and leave no room for it in another. -/
theorem validate_toNullable [Pattern.Engine] {s : Schema} {o : Options} {v : Validator}
    (h : compile s o.plain = .ok v) :
    ∃ w, compile s.toNullable o.plain = .ok w ∧
      (∀ value, value ≠ .null → (w.Passes value ↔ v.Passes value)) ∧
      (w.Passes .null ↔ (s.MentionsNull → v.Passes .null)) ∧
      (s.hasCombination = false →
        (¬ w.Passes .null ↔ s.nullable = false ∧ s.NamesNull ∧ ¬ s.FitsNull)) := by
  have hcompiled := compile_of_check (Schema.check_toNullable (check_of_compile h))
  have hnull := passes_plain_iff hcompiled .null
  refine ⟨_, hcompiled, fun value hvalue => ?_, ?_, fun hcombined => ?_⟩
  · rw [passes_plain_iff hcompiled, passes_plain_iff h]
    exact Schema.succeeds_toNullable o.plain false hvalue
  · rw [hnull, Schema.clears_null_toNullable, passes_plain_iff h]
  · have hmentions : s.MentionsNull ↔ s.NamesNull := by
      obtain ⟨hone, -, hany, -⟩ := Schema.hasCombination_eq_false.mp hcombined
      simp [Schema.MentionsNull, hone, hany]
    rw [hnull, Schema.clears_null_toNullable, hmentions,
      (Schema.readsParts_clears o).null_iff hcombined, Classical.not_imp, not_or, Bool.not_eq_true]
    exact and_left_comm

/-- A text that is not empty. -/
def label : Schema where
  kind := some .string
  text := { minLength := some 1 }

/-- A label takes null too once it is made to, and the empty text as little as before. -/
theorem validate_toNullable_label :
    compile label (Options.plain {}) = .ok ⟨label, Options.plain {}, rfl⟩ ∧
      ∃ w, compile label.toNullable (Options.plain {}) = .ok w ∧ w.Passes .null ∧
        w.Passes (.string "a") ∧ ¬ w.Passes (.string "") := by
  have hcompiled : compile label (Options.plain {}) = .ok ⟨label, Options.plain {}, rfl⟩ := rfl
  obtain ⟨w, hw, hothers, hnull, -⟩ := validate_toNullable hcompiled
  refine ⟨hcompiled, w, hw, hnull.mpr fun hmentions => ?_, ?_, ?_⟩
  · simp [Schema.MentionsNull, Schema.NamesNull, label] at hmentions
  · exact (hothers (.string "a") (by simp)).mpr (passes_iff.mpr ⟨by decide, by decide⟩)
  · exact fun hpasses => absurd (passes_iff.mp ((hothers (.string "") (by simp)).mp hpasses)).2 (by decide)

/-- A text of a list in which null stands too: it names null, and its kind is in the way. -/
def grade : Schema where
  kind := some .string
  enum := some [.string "a", .null]

theorem toNullable_not_takes_null : ¬ ∀ (s : Schema) (o : Options) (v : Validator),
    compile s o.plain = .ok v →
      ∃ w, compile s.toNullable o.plain = .ok w ∧ w.Passes .null := by
  intro h
  obtain ⟨w, hw, hpasses⟩ := h grade {} ⟨grade, Options.plain {}, rfl⟩ rfl
  obtain ⟨hschema, hoptions⟩ := compile_eq_ok hw
  obtain ⟨-, hnull⟩ := passes_iff.mp hpasses
  rw [validate, hschema, hoptions] at hnull
  revert hnull
  decide

end Validator

end DataSchema
