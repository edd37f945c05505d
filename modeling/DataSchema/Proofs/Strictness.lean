import DataSchema.Pattern.Reader
import DataSchema.Proofs.Checking
import DataSchema.Proofs.Facets
import DataSchema.Proofs.Policies
import DataSchema.Proofs.Validator

/-!
Which schemas compile, and what strictness changes.

Compilation looks at every schema in the tree, and at each for faults of its own
(`Schema.check_eq_ok_iff_forall_within`). A lenient policy asks only that patterns be patterns; a strict one
asks for known formats, bounds in order, declared required names and no default of an optional property
besides (`Schema.sound_lenient_iff`, `Schema.sound_strict_iff`). Bounds are finite, so that two of them are
in order or not. The run does not look at strictness (`Schema.run_strictly`), so a strict validator reports
what the lenient one does.
-/

namespace DataSchema

/-- The policy with the strict check, or without it. -/
def Options.strictly (o : Options) (strict : Bool) : Options := { o with strict := strict }

theorem Validator.compiles_iff_check [Pattern.Engine] {s : Schema} {o : Options} :
    (∃ v, compile s o = .ok v) ↔ s.check o.strict = .ok () :=
  ⟨fun ⟨_, h⟩ => check_of_compile h, fun h => ⟨_, compile_of_check h⟩⟩

namespace Schema

variable {s : Schema}

/-! ### The demands -/

/-- The schema's own pattern is a pattern, and so is every key of its patterned properties. -/
structure PatternsValid [Pattern.Engine] (s : Schema) : Prop where
  text : ∀ source ∈ s.text.pattern, Pattern.isValid source = true
  keys : ∀ e ∈ s.patternProperties, Pattern.isValid e.1 = true

/-- What only the strict check asks of a schema alone. -/
structure Orderly (s : Schema) : Prop where
  format : ∀ name ∈ s.text.format, (Format.ofName? name).isSome = true
  length : ∀ low ∈ s.text.minLength, ∀ high ∈ s.text.maxLength, low ≤ high
  number : ∀ low ∈ s.number.minimum, ∀ high ∈ s.number.maximum, low.units ≤ high.units
  items : ∀ low ∈ s.array.minItems, ∀ high ∈ s.array.maxItems, low ≤ high
  properties : ∀ low ∈ s.object.minProperties, ∀ high ∈ s.object.maxProperties, low ≤ high
  required : ∀ name ∈ s.requiredNames, s.declares name = true
  defaults : ∀ e ∈ s.properties, s.isRequired e.1 = false → e.2.default = none

/-! ### Faults that are not there -/

theorem patternFault?_eq_none [Pattern.Engine] {source : String} :
    patternFault? source = none ↔ Pattern.isValid source = true := by
  simp [patternFault?]

theorem formatFault?_eq_none {name : String} :
    formatFault? name = none ↔ (Format.ofName? name).isSome = true := by
  simp [formatFault?, Option.isSome_iff_ne_none]

theorem boundsFault?_eq_none {α : Type} {bounds : Bounds} {greater : α → α → Bool}
    {low high : Option α} : boundsFault? bounds greater low high = none ↔
      ∀ l ∈ low, ∀ h ∈ high, greater l h = false := by
  cases low <;> cases high <;> simp [boundsFault?]

theorem countsFault?_eq_none {bounds : Bounds} {low high : Option UInt64} :
    countsFault? bounds low high = none ↔ ∀ l ∈ low, ∀ h ∈ high, l ≤ h := by
  simp [countsFault?, boundsFault?_eq_none]

theorem undeclaredFault?_eq_none :
    (s.requiredNames.find? (!s.declares ·)).map SchemaFault.undeclaredRequired = none ↔
      ∀ name ∈ s.requiredNames, s.declares name = true := by
  simp

theorem optionalDefault_eq_false {name : String} {child : Schema} :
    s.optionalDefault name child = false ↔ (s.isRequired name = false → child.default = none) := by
  cases h : s.isRequired name <;> simp [optionalDefault, h]

theorem facetFault?_lenient_eq_none [Pattern.Engine] :
    s.facetFault? false = none ↔ ∀ source ∈ s.text.pattern, Pattern.isValid source = true := by
  simp [facetFault?, Option.bind_eq_none_iff, patternFault?_eq_none]

theorem sound_lenient_iff [Pattern.Engine] : s.Sound false ↔ s.PatternsValid := by
  constructor
  · rintro ⟨hfacets, -, hpatterns⟩
    exact ⟨facetFault?_lenient_eq_none.mp hfacets,
      fun e he => patternFault?_eq_none.mp (hpatterns e he)⟩
  · rintro ⟨htext, hkeys⟩
    exact ⟨facetFault?_lenient_eq_none.mpr htext, nofun,
      fun e he => patternFault?_eq_none.mpr (hkeys e he)⟩

theorem strictFault?_eq_none : s.strictFault? = none ↔
    (∀ low ∈ s.text.minLength, ∀ high ∈ s.text.maxLength, low ≤ high) ∧
      (∀ low ∈ s.number.minimum, ∀ high ∈ s.number.maximum, low.units ≤ high.units) ∧
      (∀ low ∈ s.array.minItems, ∀ high ∈ s.array.maxItems, low ≤ high) ∧
      (∀ low ∈ s.object.minProperties, ∀ high ∈ s.object.maxProperties, low ≤ high) ∧
      ∀ name ∈ s.requiredNames, s.declares name = true := by
  simp only [strictFault?, Option.orElse_eq_orElse, Option.orElse_eq_or, Option.or_eq_none_iff,
    countsFault?_eq_none, boundsFault?_eq_none, Binary64.less_eq_false, undeclaredFault?_eq_none]

theorem facetFault?_strict_eq_none [Pattern.Engine] : s.facetFault? true = none ↔
    s.facetFault? false = none ∧ s.text.format.bind formatFault? = none ∧ s.strictFault? = none := by
  simp [facetFault?]

theorem sound_strict_iff [Pattern.Engine] : s.Sound true ↔ s.PatternsValid ∧ s.Orderly := by
  have hformat : s.text.format.bind formatFault? = none ↔
      ∀ name ∈ s.text.format, (Format.ofName? name).isSome = true := by
    simp [Option.bind_eq_none_iff, formatFault?_eq_none]
  rw [← sound_lenient_iff]
  constructor
  · rintro ⟨hfacets, hdefaults, hpatterns⟩
    obtain ⟨hown, hnamed, hstrict⟩ := facetFault?_strict_eq_none.mp hfacets
    obtain ⟨hlength, hnumber, hitems, hproperties, hrequired⟩ := strictFault?_eq_none.mp hstrict
    exact ⟨⟨hown, nofun, hpatterns⟩, hformat.mp hnamed, hlength, hnumber, hitems, hproperties,
      hrequired, fun e he => optionalDefault_eq_false.mp (hdefaults rfl e he)⟩
  · rintro ⟨⟨hown, -, hpatterns⟩, h⟩
    have hstrict := strictFault?_eq_none.mpr
      ⟨h.length, h.number, h.items, h.properties, h.required⟩
    exact ⟨facetFault?_strict_eq_none.mpr ⟨hown, hformat.mpr h.format, hstrict⟩,
      fun _ e he => optionalDefault_eq_false.mpr (h.defaults e he), hpatterns⟩

theorem sound_iff [Pattern.Engine] (strict : Bool) :
    s.Sound strict ↔ s.PatternsValid ∧ (strict = true → s.Orderly) := by
  cases strict with
  | false => rw [sound_lenient_iff, and_iff_left nofun]
  | true => simp [sound_strict_iff]

theorem isRequired_eq_false {name : String} : s.isRequired name = false ↔ name ∉ s.requiredNames := by
  rw [isRequired, Bool.eq_false_iff, ne_eq, List.contains_iff_mem]

theorem Orderly.default_eq_none (h : s.Orderly) {e : String × Schema} (he : e ∈ s.properties)
    (hfree : e.1 ∉ s.requiredNames) : e.2.default = none :=
  h.defaults e he (isRequired_eq_false.mpr hfree)

/-- A schema whose declarations are changed passes the check as before if what is declared now passes it, and
if, where the check is strict, no required name is without a property and no optional property has a
default. -/
theorem check_of_declarations [Pattern.Engine] {t : Schema} {strict : Bool} (hs : s.check strict = .ok ())
    (hrest : t = { s with properties := t.properties, required := t.required, additional := t.additional })
    (hproperties : ∀ e ∈ t.properties, e.2.check strict = .ok ())
    (hadditional : ∀ u, t.additional = .schema u → u.check strict = .ok ())
    (hmarks : strict = true → (∀ name ∈ t.requiredNames, t.declares name = true) ∧
      ∀ e ∈ t.properties, e.1 ∉ t.requiredNames → e.2.default = none) : t.check strict = .ok () := by
  obtain ⟨hsound, hchildren⟩ := (check_eq_ok_iff s).mp hs
  obtain ⟨hpatterns, horderly⟩ := (sound_iff strict).mp hsound
  have hpatterns' : t.PatternsValid := by
    rw [hrest]
    exact ⟨hpatterns.text, hpatterns.keys⟩
  refine (check_eq_ok_iff t).mpr ⟨(sound_iff strict).mpr ⟨hpatterns', fun hstrict => ?_⟩, ?_⟩
  · obtain ⟨hformat, hlength, hnumber, hitems, hcounts, -, -⟩ := horderly hstrict
    obtain ⟨hrequired, hdefaults⟩ := hmarks hstrict
    rw [hrest] at hrequired hdefaults ⊢
    exact ⟨hformat, hlength, hnumber, hitems, hcounts, hrequired,
      fun e he hfree => hdefaults e he (isRequired_eq_false.mp hfree)⟩
  · obtain ⟨-, hpatterned, -, hothers⟩ := forall_child_iff.mp hchildren
    rw [hrest] at hproperties hadditional ⊢
    exact forall_child_iff.mpr ⟨hproperties, hpatterned, hadditional, hothers⟩

/-- The same where only properties and marks are changed. -/
theorem check_of_properties [Pattern.Engine] {t : Schema} {strict : Bool} (hs : s.check strict = .ok ())
    (hrest : t = { s with properties := t.properties, required := t.required })
    (hproperties : ∀ e ∈ t.properties, e.2.check strict = .ok ())
    (hmarks : strict = true → (∀ name ∈ t.requiredNames, t.declares name = true) ∧
      ∀ e ∈ t.properties, e.1 ∉ t.requiredNames → e.2.default = none) : t.check strict = .ok () := by
  have hadditional : t.additional = s.additional := by rw [hrest]
  refine check_of_declarations hs ?_ hproperties (fun u hu => ?_) hmarks
  · rw [hadditional]
    exact hrest
  · exact ((check_eq_ok_iff s).mp hs).2 u (.additional (hadditional ▸ hu))

/-! ### The whole tree -/

/-- A schema passes the check exactly if no schema in its tree has a fault of its own. -/
theorem check_eq_ok_iff_forall_within [Pattern.Engine] (strict : Bool) (s : Schema) :
    s.check strict = .ok () ↔ ∀ t, Within t s → t.Sound strict := by
  induction s using Schema.induction with
  | step s ih =>
    rw [check_eq_ok_iff]
    constructor
    · rintro ⟨hown, hchildren⟩ t ht
      cases ht with
      | refl => exact hown
      | step hchild hwithin => exact (ih _ hchild).mp (hchildren _ hchild) t hwithin
    · intro h
      exact ⟨h s (.refl s), fun t ht => (ih t ht).mpr fun u hu => h u (.step ht hu)⟩

/-! ### The evaluator -/

/-- The evaluator makes the same run, whether or not the check was a strict one. -/
theorem run_strictly [Pattern.Engine] (o : Options) (strict : Bool) (s : Schema) (listed : Bool) :
    s.run (o.strictly strict) listed = s.run o listed := by
  have halike : o.Alike (o.strictly strict) s := ⟨rfl, rfl, fun _ _ => rfl⟩
  exact s.run_congr halike listed

end Schema

namespace Validator

/-- A schema compiles under a lenient policy exactly if every pattern in its tree is a pattern, and under a
strict one exactly if every schema in the tree is orderly besides. Where the strict policy compiles it, the
lenient one breaks off at the same values and lists, and gives the same reports. -/
theorem compiles_iff [Pattern.Engine] (s : Schema) (o : Options) :
    ((∃ v, compile s (o.strictly false) = .ok v) ↔ ∀ t, Schema.Within t s → t.PatternsValid) ∧
      ((∃ v, compile s (o.strictly true) = .ok v) ↔
        ∀ t, Schema.Within t s → t.PatternsValid ∧ t.Orderly) ∧
      ∀ strict, compile s (o.strictly true) = .ok strict →
        ∃ lenient, compile s (o.strictly false) = .ok lenient ∧
          (∀ value, lenient.breaksOff value = strict.breaksOff value ∧
            lenient.validate value = strict.validate value) ∧
          ∀ values, lenient.listBreaksOff values = strict.listBreaksOff values ∧
            lenient.validateList values = strict.validateList values := by
  have hlenient : (∃ v, compile s (o.strictly false) = .ok v) ↔
      ∀ t, Schema.Within t s → t.PatternsValid := by
    simp only [compiles_iff_check, Schema.check_eq_ok_iff_forall_within]
    exact forall₂_congr fun t _ => Schema.sound_lenient_iff
  have hstrict : (∃ v, compile s (o.strictly true) = .ok v) ↔
      ∀ t, Schema.Within t s → t.PatternsValid ∧ t.Orderly := by
    simp only [compiles_iff_check, Schema.check_eq_ok_iff_forall_within]
    exact forall₂_congr fun t _ => Schema.sound_strict_iff
  refine ⟨hlenient, hstrict, fun strict hcompiled => ?_⟩
  have hpatterns : ∀ t, Schema.Within t s → t.PatternsValid :=
    fun t ht => (hstrict.mp ⟨strict, hcompiled⟩ t ht).1
  obtain ⟨lenient, hcompiled'⟩ := hlenient.mpr hpatterns
  obtain ⟨hschema, hoptions⟩ := compile_eq_ok hcompiled
  obtain ⟨hschema', hoptions'⟩ := compile_eq_ok hcompiled'
  have hrun : ∀ listed value, lenient.schema.run lenient.options listed value =
      strict.schema.run strict.options listed value := by
    intro listed value
    rw [hschema, hschema', hoptions, hoptions', Schema.run_strictly, Schema.run_strictly]
  have hreport : ∀ {α : Type} (x : Outcome α),
      Report.ofOutcome lenient.options x = Report.ofOutcome strict.options x := by
    intro α x
    rw [hoptions, hoptions']
    rfl
  refine ⟨lenient, hcompiled', fun value => ⟨congrArg Run.breaksOff (hrun false value), ?_⟩,
    fun values => ⟨congrArg Run.breaksOff (hrun true (.array values)), ?_⟩⟩
  · rw [validate, validate, Schema.evaluate, Schema.evaluate, hrun, hreport]
  · rw [validateList, validateList, Schema.evaluate, Schema.evaluate, hrun, hreport]

/-- One to three lines, each of which begins with an x; without lines the object has no member. -/
def verse (format : String) : Schema where
  kind := some .object
  properties := [("lines", {
    kind := some .array
    array := { minItems := some 1, maxItems := some 3 }
    items := some {
      kind := some .string
      text := { pattern := some "^x", format := some format } } })]
  required := some ["lines"]

/-- With a known format the schema compiles under both policies; with an unknown one it compiles under the
lenient policy only. -/
theorem compiles_verse :
    (∀ t, Schema.Within t (verse "email") → t.PatternsValid ∧ t.Orderly) ∧
      (∃ strict lenient, compile (verse "email") (Options.strictly {} true) = .ok strict ∧
        compile (verse "email") (Options.strictly {} false) = .ok lenient ∧
        ∀ value, lenient.breaksOff value = strict.breaksOff value ∧
          lenient.validate value = strict.validate value) ∧
      (∀ t, Schema.Within t (verse "e-mail") → t.PatternsValid) ∧
      ¬ ∀ t, Schema.Within t (verse "e-mail") → t.PatternsValid ∧ t.Orderly := by
  have hstrict : compile (verse "email") (Options.strictly {} true) = .ok ⟨_, _, rfl⟩ := rfl
  have hlenient : compile (verse "e-mail") (Options.strictly {} false) = .ok ⟨_, _, rfl⟩ := rfl
  obtain ⟨-, hknown, hsame⟩ := compiles_iff (verse "email") {}
  obtain ⟨hpatterns, hunknown, -⟩ := compiles_iff (verse "e-mail") {}
  obtain ⟨lenient, hcompiled, hreports, -⟩ := hsame _ hstrict
  refine ⟨hknown.mp ⟨_, hstrict⟩, ⟨_, lenient, hstrict, hcompiled, hreports⟩,
    hpatterns.mp ⟨_, hlenient⟩, fun h => ?_⟩
  obtain ⟨v, hv⟩ := hunknown.mpr h
  cases hv

end Validator

end DataSchema
