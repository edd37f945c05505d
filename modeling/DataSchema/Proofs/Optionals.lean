import DataSchema.Pattern.Reader
import DataSchema.Proofs.Acceptance
import DataSchema.Proofs.Frame
import DataSchema.Proofs.Policies
import DataSchema.Proofs.Relaxing
import DataSchema.Proofs.Reordering
import DataSchema.Proofs.Rules

/-!
What is left of a schema that is made optional at every depth.

The required names and the defaults of properties are gone, and all else is as it was
(`Schema.Stripped`, `Schema.stripped_toDeepOptionals`). No schema in the tree requires anything, so a
validator for any of them never reports a member as missing and never fills one in
(`Validator.undemanding_of_required_none`).
-/

namespace DataSchema

/-- The policy that fills nothing in. -/
def Options.withoutDefaults (o : Options) : Options := { o with useDefaults := false }

namespace Schema

variable {s t : Schema}

/-! ### What is changed -/

/-- The second schema is the first one without required names and without the defaults of properties, here
and at every depth. Nothing else differs, and names, patterns and branches stand in the same order. -/
inductive Stripped : Schema → Schema → Prop where
  | intro {s t : Schema} (bare : t.bare = { s.bare with required := none })
      (properties : List.Forall₂ (Entries.Under fun c u => Stripped c.withoutDefault u)
        s.properties t.properties)
      (patternProperties :
        List.Forall₂ (Entries.Under Stripped) s.patternProperties t.patternProperties)
      (additional : Additional.Rel Stripped s.additional t.additional)
      (items : Option.Rel Stripped s.items t.items)
      (oneOf : Option.Rel (List.Forall₂ Stripped) s.oneOf t.oneOf)
      (allOf : Option.Rel (List.Forall₂ Stripped) s.allOf t.allOf)
      (anyOf : Option.Rel (List.Forall₂ Stripped) s.anyOf t.anyOf)
      (not : Option.Rel Stripped s.not t.not) : Stripped s t

theorem Stripped.withoutDefault (h : Stripped s t) : Stripped s.withoutDefault t.withoutDefault := by
  cases h with
  | intro bare properties patternProperties additional items oneOf allOf anyOf not =>
    exact .intro (congrArg Schema.withoutDefault bare) properties patternProperties additional items oneOf
      allOf anyOf not

theorem stripped_toDeepOptionals (s : Schema) : s.Stripped s.toDeepOptionals := by
  induction s using Schema.induction with
  | step s ih =>
    have hentries : ∀ {R : Schema → Schema → Prop} {f : Schema → Schema} {ps : List (String × Schema)},
        (∀ e ∈ ps, R e.2 (f e.2)) → List.Forall₂ (Entries.Under R) ps (Entries.mapValues f ps) :=
      fun h => List.forall₂_map_right_iff.mpr (List.forall₂_same.mpr fun e he => .intro (h e he))
    have hoption : ∀ {option : Option Schema}, (∀ t ∈ option, Child t s) →
        Option.Rel Stripped option (option.map toDeepOptionals) := by
      rintro (_ | t) ht
      · exact .none
      · exact .some (ih t (ht t rfl))
    have hbranches : ∀ {branches : Option (List Schema)}, (∀ ts ∈ branches, ∀ t ∈ ts, Child t s) →
        Option.Rel (List.Forall₂ Stripped) branches (branches.map (List.map toDeepOptionals)) := by
      rintro (_ | ts) hts
      · exact .none
      · exact .some
          (List.forall₂_map_right_iff.mpr (List.forall₂_same.mpr fun t ht => ih t (hts ts rfl t ht)))
    have hadditional : Additional.Rel Stripped s.additional (s.additional.map toDeepOptionals) := by
      cases hs : s.additional with
      | unspecified => exact .unspecified
      | allowed yes => exact .allowed yes
      | schema t => exact .schema (ih t (.additional hs))
    -- a property is stripped below first, and loses its own default afterwards
    have hproperties : List.Forall₂ (Entries.Under fun c u => Stripped c.withoutDefault u) s.properties
        (Entries.mapValues Schema.withoutDefault (Entries.mapValues toDeepOptionals s.properties)) := by
      have hstripped : ∀ e ∈ s.properties,
          Stripped e.2.withoutDefault e.2.toDeepOptionals.withoutDefault :=
        fun e he => (ih e.2 (.property he)).withoutDefault
      rw [Entries.mapValues, Entries.mapValues, List.map_map]
      exact hentries (R := fun c u => Stripped c.withoutDefault u)
        (f := fun c => c.toDeepOptionals.withoutDefault) hstripped
    rw [toDeepOptionals_eq]
    exact .intro rfl hproperties (hentries fun e he => ih e.2 (.pattern he)) hadditional
      (hoption fun _ => .items) (hbranches fun _ hs _ => .oneOf hs) (hbranches fun _ hs _ => .allOf hs)
      (hbranches fun _ hs _ => .anyOf hs) (hoption fun _ => .not)

/-! ### Nothing is required -/

theorem required_eq_none_of_within_toDeepOptionals (s : Schema) :
    ∀ t, Within t s.toDeepOptionals → t.required = none := by
  induction s using Schema.induction with
  | step s ih =>
    have hdefault : ∀ c : Schema, (∀ t, Within t c → t.required = none) →
        ∀ t, Within t c.withoutDefault → t.required = none := by
      intro c hc t ht
      cases ht with
      | refl => exact hc c (.refl c)
      | step hchild hwithin =>
        have hbelow : ∀ u, Child u c.withoutDefault → Child u c :=
          forall_child_withoutDefault.mpr fun _ hu => hu
        exact hc t (.step (hbelow _ hchild) hwithin)
    intro t ht
    rw [toDeepOptionals_eq] at ht
    cases ht with
    | refl => rfl
    | step hchild hwithin =>
      exact forall_child_toOptionals (forall_child_mapChildren.mpr ih) hdefault _ hchild t hwithin

variable [Pattern.Engine]

section Unrequired

variable {o : Options} {listed : Bool} {value : Json} (h : ∀ t, Within t s → t.required = none)

include h

theorem ne_required_of_required_none {f : Finding} (hf : f ∈ (s.evaluate o listed value).findings) :
    f.violation.keyword ≠ .required := by
  intro hkeyword
  obtain ⟨name, hname⟩ : ∃ name, f.violation = .required name := by
    cases hv : f.violation <;> rw [hv] at hkeyword <;> first | exact ⟨_, rfl⟩ | cases hkeyword
  obtain ⟨t, ht, hrequires⟩ := exists_requires_of_finding hf hname
  rw [requiredNames, h t ht] at hrequires
  cases hrequires

/-- Where nothing is required no default is filled in, whether the policy would have it or not. -/
theorem evaluate_withoutDefaults_of_required_none (o : Options) (listed : Bool) :
    s.evaluate o.withoutDefaults listed = s.evaluate o listed := by
  have halike : o.Alike o.withoutDefaults s := by
    refine ⟨rfl, rfl, fun t ht => funext fun members => ?_⟩
    have hnone : ∀ members, t.fillDefaults members = members := fun members =>
      fillDefaults_of_required (by simp [requiredNames, h t ht])
    rw [prepare, prepare, hnone, hnone, ite_self, ite_self]
    rfl
  exact s.evaluate_congr halike listed

end Unrequired

end Schema

namespace Validator

/-- A validator that reports no member as missing and fills none in. -/
structure Undemanding [Pattern.Engine] (v : Validator) : Prop where
  required : ∀ value, ∀ issue ∈ (v.validate value).issues, issue.keyword ≠ .required
  requiredInList : ∀ values, ∀ issue ∈ (v.validateList values).issues, issue.keyword ≠ .required
  /-- The same reports come without defaults. -/
  defaults : ∃ w, compile v.schema v.options.withoutDefaults = .ok w ∧
    (∀ value, w.validate value = v.validate value) ∧
      ∀ values, w.validateList values = v.validateList values
  /-- Every place of the value that is handed back was there. -/
  original : ∀ value path, ((v.validate value).value.at? path).isSome → (value.at? path).isSome
  unchanged : v.options.coerceTypes = false → v.options.removeAdditional = false →
    (∀ value, (v.validate value).value = value) ∧ ∀ values, (v.validateList values).value = values

theorem undemanding_of_required_none [Pattern.Engine] {v : Validator}
    (h : ∀ t, Schema.Within t v.schema → t.required = none) : v.Undemanding where
  required value issue hissue := by
    obtain ⟨f, hf, rfl⟩ := Report.exists_finding hissue
    exact Schema.ne_required_of_required_none h hf
  requiredInList values issue hissue := by
    obtain ⟨f, hf, rfl⟩ := Report.exists_finding hissue
    exact Schema.ne_required_of_required_none h hf
  defaults := by
    refine ⟨_, compile_of_check (o := v.options.withoutDefaults) v.checked, fun value => ?_, fun values => ?_⟩
    · rw [validate, validate, Schema.evaluate_withoutDefaults_of_required_none h]
      rfl
    · rw [validateList, validateList, Schema.evaluate_withoutDefaults_of_required_none h]
      rfl
  original value path := by
    have hframe := v.schema.frame_evaluate v.options.withoutDefaults false value
    rw [Schema.evaluate_withoutDefaults_of_required_none h] at hframe
    exact hframe.original rfl path
  unchanged hcoerce hremove := by
    have hplain : v.options.plain = v.options.withoutDefaults := by
      rw [Options.plain, Options.withoutDefaults, hcoerce, hremove]
    have hkept : ∀ listed value, (v.schema.evaluate v.options listed value).value = value := by
      intro listed value
      have hjudges := v.schema.judges_evaluate v.options listed value
      rw [hplain, Schema.evaluate_withoutDefaults_of_required_none h] at hjudges
      exact hjudges.value_eq
    exact ⟨hkept false, fun values => congrArg elements (hkept true (.array values))⟩

/-- A schema that is made optional at every depth has lost required names and defaults of properties and
nothing else. It compiles where the schema does, and so does every schema in it, whatever keyword it stands
under; and none of them reports a member as missing or fills one in. -/
theorem stripped_and_undemanding [Pattern.Engine] {s : Schema} {o : Options} {v : Validator}
    (h : compile s o = .ok v) :
    s.Stripped s.toDeepOptionals ∧ ∀ t, Schema.Within t s.toDeepOptionals →
      ∃ w, compile t o = .ok w ∧ w.Undemanding := by
  refine ⟨s.stripped_toDeepOptionals, fun t ht => ?_⟩
  have hchecked := Schema.check_of_within ht (s.check_toDeepOptionals (check_of_compile h))
  refine ⟨_, compile_of_check hchecked, undemanding_of_required_none fun u hu => ?_⟩
  exact s.required_eq_none_of_within_toDeepOptionals u (hu.trans ht)

/-- What is said, or how often a greeting is, in English unless the language is given. -/
def greeting : Schema where
  kind := some .object
  properties := [("language", { kind := some .string, default := some (.string "en") })]
  required := some ["language"]
  anyOf := some [{ required := some ["text"] }, { required := some ["times"] }]

/-- The empty object is left without a language, and neither branch misses a member in it. -/
theorem stripped_and_undemanding_greeting :
    compile greeting {} = .ok ⟨greeting, {}, rfl⟩ ∧ greeting.Stripped greeting.toDeepOptionals ∧
      ∃ w, compile greeting.toDeepOptionals {} = .ok w ∧
        (∀ issue ∈ (w.validate (.object [])).issues, issue.keyword ≠ .required) ∧
        (w.validate (.object [])).value = .object [] := by
  have hcompiled : compile greeting {} = .ok ⟨greeting, {}, rfl⟩ := rfl
  obtain ⟨hstripped, hwithin⟩ := stripped_and_undemanding hcompiled
  obtain ⟨w, hw, hundemanding⟩ := hwithin _ (.refl _)
  obtain ⟨-, hoptions⟩ := compile_eq_ok hw
  refine ⟨hcompiled, hstripped, w, hw, hundemanding.required _, (hundemanding.unchanged ?_ ?_).1 _⟩
  all_goals rw [hoptions]

end Validator

end DataSchema
