import DataSchema.Pattern.Reader
import DataSchema.Proofs.Conforming
import DataSchema.Proofs.Objects
import DataSchema.Proofs.Rewriting

/-!
What a passing run leaves.

A run checks a value before it rewrites what is in it, so what was checked and what is left need not be
the same. A part of what is left was left by a run of the schema that governs it, on the part that was
there (`exists_run_of_sole`). So what is left is accepted (`accepts_of_passes`), if no schema checks
anything that rewriting below it can undo (`Schema.Lasting`). Schemas and values are taken to be
well-keyed, as all that are read are.
-/

namespace DataSchema

namespace Schema

variable [Pattern.Engine] {o : Options} {listed : Bool} {s : Schema}

/-! ### The content of a value -/

/-- The schema `t` governs the part `x` of the value at the step, and no other schema nested in `s` does. -/
inductive Sole (s : Schema) : Json → Step → Schema → Json → Prop where
  | item {items : List Json} {i : Nat} {t : Schema} {x : Json} :
    s.items = some t → items[i]? = some x → Sole s (.array items) (.index i) t x
  | member {members : List (String × Json)} {key : String} {t : Schema} {x : Json} :
    (key, x) ∈ members → s.governing key = [t] → Sole s (.object members) (.key key) t x

/-- Where there is at most one pattern, no part is governed by two schemas. -/
theorem Part.exists_sole {value x : Json} {t : Schema} (h : s.Part value t x)
    (hnames : (Entries.keys s.properties).Nodup) (hone : s.patternProperties.length ≤ 1) :
    ∃ step, s.Sole value step t x := by
  cases h with
  | item ht hx =>
    obtain ⟨i, hi⟩ := List.mem_iff_getElem?.mp hx
    exact ⟨_, .item ht hi⟩
  | declared ht hx =>
    exact ⟨_, .member (Entries.mem_of_get? hx)
      (governing_of_mem hnames hone (mem_governing.mpr (.inl ht)))⟩
  | patterned hx hundeclared ht haccepts =>
    exact ⟨_, .member hx (governing_of_mem hnames hone
      (mem_governing.mpr (.inr (.inl ⟨hundeclared, _, ht, haccepts⟩))))⟩
  | extra hx hextra ht =>
    exact ⟨_, .member hx (governing_of_mem hnames hone (mem_governing.mpr (.inr (.inr ⟨ht, hextra⟩))))⟩

theorem keysHold_of_passes {members : List (String × Json)}
    (h : (s.evaluateMembers o members).passes = true) : s.KeysHold members := by
  rw [evaluateMembers, Outcome.passes_andThen, Outcome.passes_broken] at h
  exact (s.keyViolations_eq_nil members).mp h.1

/-- Elements that pass are left one by one as the schema for elements leaves them. -/
theorem evaluateElements_of_passes {t : Schema} (ht : s.items = some t) {items : List Json}
    (h : (s.evaluateElements o listed items).passes = true) :
    (∀ y ∈ items, (t.evaluate o false y).passes = true) ∧
      (s.evaluateElements o listed items).value = items.map fun y => (t.evaluate o false y).value := by
  rw [evaluateElements, ht] at h ⊢
  have hall := (Outcome.passes_eachItem _ _ items 0).mp h
  exact ⟨hall, congrArg Outcome.value (Outcome.eachItem_of_passes 0 hall)⟩

/-- The elements of an array that passes, and what is left of them. -/
theorem evaluateContent_array {items : List Json}
    (h : (s.evaluateContent o listed (.array items)).passes = true) :
    s.array.Hold items ∧ (s.evaluateElements o listed items).passes = true ∧
      (s.evaluateContent o listed (.array items)).value =
        .array (s.evaluateElements o listed items).value := by
  rw [evaluateContent, Outcome.passes_map, Outcome.passes_andThen, Outcome.passes_broken,
    s.array.violations_eq_nil] at h
  refine ⟨h.1, h.2, ?_⟩
  rw [evaluateContent, (s.array.violations_eq_nil items).mpr h.1, Outcome.broken_nil,
    Outcome.ok_andThen]
  rfl

/-- The members of an object that passes, and what is left of them. -/
theorem evaluateContent_object {members : List (String × Json)}
    (hkeys : (Entries.keys members).Nodup)
    (h : (s.evaluateContent o listed (.object members)).passes = true) :
    s.KeysHold (s.prepare o members) ∧
      (∀ e ∈ s.prepare o members, (s.evaluateMember o e.1 e.2).passes = true) ∧
      (s.evaluateContent o listed (.object members)).value =
        .object ((s.prepare o members).map fun e => (e.1, (s.evaluateMember o e.1 e.2).value)) := by
  rw [evaluateContent, Outcome.passes_map] at h
  have hhold := keysHold_of_passes h
  have hmembers := memberwise_evaluateMembers (o := o) (nodup_keys_prepare o s hkeys) hhold
  exact ⟨hhold, hmembers.passes_iff.mp h, congrArg Json.object (hmembers.value_eq h)⟩

/-- A member of a prepared object was there, or it is the default of the one schema that governs it. -/
theorem get?_or_default_of_prepared {t : Schema} {members : List (String × Json)} {e : String × Json}
    (hs : s.WellKeyed) (hvalue : (Json.object members).WellKeyed) (he : e ∈ s.prepare o members)
    (ht : s.governing e.1 = [t]) : Entries.get? members e.1 = some e.2 ∨ t.default = some e.2 := by
  have hget := Entries.get?_of_mem (nodup_keys_prepare o s hvalue.keys) he
  rw [get?_prepare o hs.names, Option.or_eq_some_iff] at hget
  rcases hget with hkept | ⟨-, hfiller⟩
  · left
    split at hkept
    · exact hkept
    · cases hkept
  · right
    split at hfiller
    · rw [filler?] at hfiller
      split at hfiller
      · obtain ⟨c, hc, hdefault⟩ := Option.bind_eq_some_iff.mp hfiller
        rw [governing_of_declared hs.names hc] at ht
        cases ht
        exact hdefault
      · cases hfiller
    · cases hfiller

/-- A part of what is left, with one schema to govern it, was left by a passing run of that schema on what
stood there before, or on the default of the schema. -/
theorem exists_run_of_sole {value x : Json} {t : Schema} {step : Step} (hs : s.WellKeyed)
    (hvalue : value.WellKeyed) (h : (s.evaluateContent o listed value).passes = true)
    (hsole : s.Sole (s.evaluateContent o listed value).value step t x) :
    ∃ y : Json, y.WellKeyed ∧ (value.step? step = some y ∨ t.default = some y) ∧
      (t.evaluate o false y).passes = true ∧ (t.evaluate o false y).value = x := by
  cases value with
  | array items =>
    obtain ⟨-, hpasses, hleft⟩ := evaluateContent_array h
    rw [hleft] at hsole
    cases hsole with
    | item ht hx =>
      obtain ⟨hall, hvalues⟩ := evaluateElements_of_passes ht hpasses
      rw [hvalues, List.getElem?_map] at hx
      obtain ⟨y, hy, rfl⟩ := Option.map_eq_some_iff.mp hx
      have hmem := List.mem_of_getElem? hy
      exact ⟨y, hvalue.items y hmem, .inl hy, hall y hmem, rfl⟩
  | object members =>
    obtain ⟨-, hall, hleft⟩ := evaluateContent_object hvalue.keys h
    rw [hleft] at hsole
    cases hsole with
    | member hx ht =>
      obtain ⟨e, he, heq⟩ := List.mem_map.mp hx
      cases heq
      have hrun : s.evaluateMember o e.1 = t.evaluate o false := by
        rw [evaluateMember, ht, Outcome.inTurn_singleton]
      rw [hrun]
      exact ⟨e.2, (wellKeyed_prepare o hs hvalue).members e he,
        get?_or_default_of_prepared hs hvalue he ht, hrun ▸ hall e he, rfl⟩
  | _ => cases hsole

theorem length_evaluateElements (o : Options) (listed : Bool) (s : Schema) (items : List Json) :
    (s.evaluateElements o listed items).value.length = items.length := by
  rw [evaluateElements]
  split
  · exact Outcome.length_eachItem _ _ items 0
  · rfl

/-- What is left of the content has the form of the value, and is the value itself if that is a scalar. -/
theorem evaluateContent_form (o : Options) (listed : Bool) (s : Schema) (value : Json) :
    value.SameForm (s.evaluateContent o listed value).value ∧
      (value.isScalar = true → (s.evaluateContent o listed value).value = value) := by
  cases value with
  | array items =>
    refine ⟨.array ?_, nofun⟩
    rcases Outcome.value_andThen (Outcome.broken items (s.array.violations items)) o.stops
      (s.evaluateElements o listed) with hleft | hleft
    · exact congrArg List.length hleft.symm
    · exact (congrArg List.length hleft).symm ▸ (length_evaluateElements o listed s items).symm
  | object members => exact ⟨.object, nofun⟩
  | null => exact ⟨.refl _, fun _ => rfl⟩
  | bool b => exact ⟨.refl _, fun _ => rfl⟩
  | number n => exact ⟨.refl _, fun _ => rfl⟩
  | string text => exact ⟨.refl _, fun _ => rfl⟩

/-! ### Runs without combinations -/

theorem evaluateCombinations_of_uncombined (h : s.hasCombination = false) :
    s.evaluateCombinations o listed = Outcome.ok := by
  funext value
  rw [← toOutcome_runCombinations, runCombinations_of_uncombined h]
  rfl

/-- A value that passes is a null let through, or it was let in and kept to the constant and the listed
values, and its content passed. -/
theorem exists_admitted_of_passes {value : Json} (hthrough : ¬ (value = .null ∧ s.nullable = true))
    (h : (s.evaluate o listed value).passes = true) :
    ∃ admitted, s.admit? o value = some admitted ∧ s.valueViolations admitted = [] ∧
      (s.evaluateContent o listed admitted).passes = true := by
  cases hadmit : s.admit? o value with
  | none =>
    have hkind : ¬ ∀ kind ∈ s.kind, value.hasKind kind = true := fun hkind =>
      Option.some_ne_none _ ((admit?_of_kind o hkind).symm.trans hadmit)
    rw [evaluate_refused hthrough hadmit, Outcome.passes_broken] at h
    exact absurd h (kindViolations_ne_nil hkind)
  | some admitted =>
    rw [evaluate_admitted hthrough hadmit, Outcome.passes_andThen, Outcome.passes_andThen,
      Outcome.passes_broken] at h
    exact ⟨admitted, rfl, h.1⟩

/-- Without combinations, a run that passes is over with the content: the value was let through as a
null, or it was let in, kept to the constant and the listed values, and was left as its content is. -/
theorem evaluate_of_uncombined {value : Json} (hs : s.hasCombination = false)
    (h : (s.evaluate o listed value).passes = true) :
    (value = .null ∧ s.nullable = true ∧ (s.evaluate o listed value).value = .null) ∨
      ∃ admitted, s.admit? o value = some admitted ∧ s.valueViolations admitted = [] ∧
        (s.evaluateContent o listed admitted).passes = true ∧
        (s.evaluate o listed value).value = (s.evaluateContent o listed admitted).value := by
  by_cases hnull : value = .null ∧ s.nullable = true
  · left
    rw [evaluate_null hnull]
    exact ⟨hnull.1, hnull.2, hnull.1⟩
  · right
    obtain ⟨admitted, hadmit, hown, hcontent⟩ := exists_admitted_of_passes hnull h
    refine ⟨admitted, hadmit, hown, hcontent, ?_⟩
    rw [evaluate_admitted hnull hadmit, evaluateCombinations_of_uncombined hs, Outcome.andThen_ok,
      hown, Outcome.broken_nil, Outcome.ok_andThen]

/-- Without combinations, a value that is let in and has no part under another schema is judged by the
schema's own demands. -/
theorem judges_evaluate_of_no_parts {value admitted : Json} (listed : Bool)
    (hs : s.hasCombination = false) (hthrough : ¬ (value = .null ∧ s.nullable = true))
    (hlet : s.admit? o value = some admitted) (hobject : ∀ members, admitted ≠ .object members)
    (hparts : ∀ t x, ¬ s.Part admitted t x) :
    (s.evaluate o listed value).Judges admitted (s.OwnHold admitted) := by
  have hown := (Outcome.judges_broken admitted (s.valueViolations admitted)).congr
    (s.valueViolations_eq_nil admitted)
  have hcontent := judges_evaluateContent (o := o) (s := s) (P := fun _ _ => True) listed admitted
    (fun members hm => absurd hm (hobject members)) fun t x hpart => absurd hpart (hparts t x)
  have hkind := (admit?_eq_some hlet).1
  rw [evaluate_admitted hthrough hlet, evaluateCombinations_of_uncombined hs, Outcome.andThen_ok]
  refine (hown.andThen _ hcontent).congr ?_
  constructor
  · rintro ⟨⟨hconst, henum⟩, hhold, -⟩
    exact ⟨hkind, hconst, henum, hhold⟩
  · rintro ⟨-, hconst, henum, hhold⟩
    exact ⟨⟨hconst, henum⟩, hhold, fun _ _ _ => trivial⟩

/-! ### What is left is accepted -/

/-- What is checked at a value is not undone by what is rewritten below it: no combinations, constants and
listed values without parts, no elements that must differ, and no member under two patterns. -/
structure Lasting (s : Schema) : Prop where
  uncombined : s.hasCombination = false
  const : ∀ c ∈ s.const, c.isScalar = true
  enum : ∀ cs ∈ s.enum, ∀ c ∈ cs, c.isScalar = true
  repeatable : s.array.uniqueItems = false
  onePattern : s.patternProperties.length ≤ 1

instance : DecidablePred Lasting := fun s =>
  decidable_of_iff
    (s.hasCombination = false ∧ (∀ c ∈ s.const, c.isScalar = true) ∧
      (∀ cs ∈ s.enum, ∀ c ∈ cs, c.isScalar = true) ∧ s.array.uniqueItems = false ∧
      s.patternProperties.length ≤ 1)
    ⟨fun ⟨hcombined, hconst, henum, hunique, hone⟩ => ⟨hcombined, hconst, henum, hunique, hone⟩,
      fun ⟨hcombined, hconst, henum, hunique, hone⟩ => ⟨hcombined, hconst, henum, hunique, hone⟩⟩

omit [Pattern.Engine] in
theorem hasKind_of_sameForm {value left : Json} {kind : Kind} (hform : value.SameForm left)
    (hscalar : value.isScalar = true → left = value) (h : value.hasKind kind = true) :
    left.hasKind kind = true := by
  cases hform with
  | scalar hvalue _ => rw [hscalar hvalue]; exact h
  | array _ => cases kind <;> exact h
  | object => cases kind <;> exact h

omit [Pattern.Engine] in
theorem isScalar_of_equivalent {c value : Json} (hc : c.isScalar = true)
    (h : Json.equivalent c value = true) : value.isScalar = true := by
  cases value with
  | array _ => cases c <;> simp_all [Json.equivalent, Json.isScalar]
  | object _ => cases c <;> simp_all [Json.equivalent, Json.isScalar]
  | _ => rfl

/-- Which keys an object has is all that is asked of its keys. -/
theorem KeysHold.map {members : List (String × Json)} (h : s.KeysHold members)
    (f : String → Json → Json) : s.KeysHold (members.map fun e => (e.1, f e.1 e.2)) where
  required name hname := by
    rw [Entries.has_iff, Entries.keys_map, ← Entries.has_iff]
    exact h.required name hname
  counts := (ObjectFacets.hold_congr (List.length_map _).symm).mp h.counts
  closed hopen := List.forall_mem_map.mpr (h.closed hopen)

/-- The facets for the kind of a value that passes hold of what is left: of an array only the length
counts, and of an object only the keys. -/
theorem Lasting.contentHold (hs : s.Lasting) {value : Json} (hvalue : value.WellKeyed)
    (h : (s.evaluateContent o listed value).passes = true) :
    s.ContentHold (s.evaluateContent o listed value).value := by
  cases value with
  | string text => exact (s.text.violations_eq_nil text).mp ((Outcome.passes_broken _ _).mp h)
  | number n => exact (s.number.violations_eq_nil n.toDouble).mp ((Outcome.passes_broken _ _).mp h)
  | array items =>
    obtain ⟨⟨hmin, hmax, -⟩, -, hleft⟩ := evaluateContent_array h
    rw [hleft]
    rw [← length_evaluateElements o listed s items] at hmin hmax
    exact ⟨hmin, hmax, fun hunique => absurd hunique (by rw [hs.repeatable]; decide)⟩
  | object members =>
    obtain ⟨hkeys, -, hleft⟩ := evaluateContent_object hvalue.keys h
    rw [hleft]
    exact hkeys.map fun key x => (s.evaluateMember o key x).value
  | null => trivial
  | bool b => trivial

omit [Pattern.Engine] in
theorem Lasting.valueViolations (hs : s.Lasting) {value left : Json}
    (hscalar : value.isScalar = true → left = value) (h : s.valueViolations value = []) :
    s.valueViolations left = [] := by
  obtain ⟨hconst, henum⟩ := (s.valueViolations_eq_nil value).mp h
  refine (s.valueViolations_eq_nil left).mpr ⟨fun c hc => ?_, fun cs hcs => ?_⟩
  · have hequivalent := hconst c hc
    rw [hscalar (isScalar_of_equivalent (hs.const c hc) hequivalent)]
    exact hequivalent
  · obtain ⟨c, hc, hequivalent⟩ := henum cs hcs
    rw [hscalar (isScalar_of_equivalent (hs.enum cs hcs c hc) hequivalent)]
    exact ⟨c, hc, hequivalent⟩

omit [Pattern.Engine] in
theorem wellKeyed_admitted {value admitted : Json} (hvalue : value.WellKeyed)
    (h : s.admit? o value = some admitted) : admitted.WellKeyed := by
  rcases (admit?_eq_some h).2 with rfl | ⟨-, -, hscalar⟩
  · exact hvalue
  · exact .scalar hscalar

/-- What a passing run leaves is accepted as it is. -/
theorem accepts_of_passes (o : Options) (s : Schema) : ∀ (listed : Bool) (value : Json),
    s.WellKeyed → (∀ t, Within t s → t.Lasting) → value.WellKeyed →
      (s.evaluate o listed value).passes = true → s.Accepts (s.evaluate o listed value).value := by
  induction s using Schema.induction with
  | step s ih =>
    intro listed value hkeyed hlasting hvalue hpasses
    have hs := hlasting s (.refl s)
    rw [Accepts]
    rcases evaluate_of_uncombined hs.uncombined hpasses with
      ⟨-, hnullable, hleft⟩ | ⟨admitted, hadmit, hown, hcontent, hleft⟩
    · exact .inl ⟨hleft, hnullable⟩
    · rw [hleft]
      have hadmitted := wellKeyed_admitted hvalue hadmit
      obtain ⟨hform, hscalar⟩ := evaluateContent_form o listed s admitted
      have hkind := (admit?_eq_some hadmit).1
      obtain ⟨hconst, henum⟩ :=
        (s.valueViolations_eq_nil _).mp (hs.valueViolations hscalar hown)
      right
      refine ⟨⟨fun kind hk => hasKind_of_sameForm hform hscalar (hkind kind hk), hconst, henum,
        hs.contentHold hadmitted hcontent⟩, ?_, ?_⟩
      · -- a part was left by the run of the schema that governs it
        intro t x hpart
        obtain ⟨step, hsole⟩ := hpart.exists_sole hkeyed.names hs.onePattern
        obtain ⟨y, hy, -, hrun, rfl⟩ := exists_run_of_sole hkeyed hadmitted hcontent hsole
        exact ih t hpart.child false y (hkeyed.child hpart.child)
          (fun u hu => hlasting u (.step hpart.child hu)) hy hrun
      · obtain ⟨hone, hall, hany, hnot⟩ := hasCombination_eq_false.mp hs.uncombined
        rw [hone, hall, hany, hnot]
        refine ⟨?_, ?_, ?_, ?_⟩
        all_goals rintro _ ⟨⟩

end Schema

namespace Validator

/-- What a passing validation hands back passes without any rewriting, and passes again under the policy
and stays as it is: for every schema at and below which nothing undoes what was checked above. -/
theorem rewritten_conforms [Pattern.Engine] {s : Schema} {o : Options} {v : Validator} {value : Json}
    (h : compile s o = .ok v) (hkeyed : s.WellKeyed) (hlasting : ∀ t, Schema.Within t s → t.Lasting)
    (hvalue : value.WellKeyed) (hpasses : (v.validate value).issues = []) :
    (∃ plain, compile s o.plain = .ok plain ∧ plain.Passes (v.validate value).value) ∧
      v.validate? (v.validate value).value = some ⟨(v.validate value).value, []⟩ := by
  obtain ⟨rfl, rfl⟩ := compile_eq_ok h
  have hchecked := check_of_compile h
  have hrun := (Report.issues_ofOutcome_eq_nil _ _).mp hpasses
  have haccepts := v.schema.accepts_of_passes v.options false value hkeyed hlasting hvalue hrun
  have hplain : compile v.schema v.options.plain = .ok ⟨_, v.options.plain, hchecked⟩ :=
    compile_of_check (o := v.options.plain) hchecked
  -- without combinations there is nothing to choose, so what is accepted as it is stays as it is
  have hfree : v.schema.ChoiceFree := fun t ht =>
    have ⟨hone, _, hany, hnot⟩ := Schema.hasCombination_eq_false.mp (hlasting t ht).uncombined
    ⟨hany, hone, hnot⟩
  have hstays := v.schema.evaluate_of_settled v.options false _ haccepts
    (Schema.settled_of_choiceFree v.options v.schema _ hfree)
  have hagain : v.validate (v.validate value).value = ⟨(v.validate value).value, []⟩ := by
    have hreport : Report.ofOutcome v.options (.ok (v.validate value).value) =
        ⟨(v.validate value).value, []⟩ := by simp [Report.ofOutcome, Outcome.ok]
    exact (congrArg (Report.ofOutcome v.options) hstays).trans hreport
  constructor
  · have hissues := (validate_plain_iff hplain (v.validate value).value).1.mpr haccepts
    exact ⟨_, hplain, _, validate?_of_choiceFree hfree hissues, hissues⟩
  · have hreport := validate?_of_choiceFree hfree (congrArg Report.issues hagain)
    rwa [hagain] at hreport

/-- A port, words, and a mode that is filled in. -/
def service : Schema where
  kind := some .object
  additional := .allowed false
  properties := [("port", { kind := some .integer, number := { maximum := Binary64.ofInt? 65535 } }),
    ("words", Schema.arrayOf (Schema.ofKind .string)),
    ("mode", { Schema.enumeration [.string "plain", .string "safe"] with
      default := some (.string "plain") })]
  required := some ["port", "mode"]

/-- A member to drop, one to convert, one whose elements are converted, and none for the mode. -/
def looseRequest : Json :=
  .object [("port", .string "80"), ("debug", .bool true),
    ("words", .array [.string "a", .bool true])]

/-- The policy that rewrites in every way. -/
def rewriting : Options := { coerceTypes := true, removeAdditional := true, useDefaults := true }

theorem rewritten_service :
    ∃ v, compile service rewriting = .ok v ∧
      (v.validate looseRequest).value = .object [("port", .number (.whole ⟨80, by decide⟩)),
        ("words", .array [.string "a", .string "true"]), ("mode", .string "plain")] ∧
      v.validate? (v.validate looseRequest).value = some ⟨(v.validate looseRequest).value, []⟩ := by
  have hkeyed : service.WellKeyed := Schema.of_allWithin 3 (by decide)
  have hlasting : ∀ t, Schema.Within t service → t.Lasting := Schema.of_allWithin 3 (by decide)
  have hpasses : ((Validator.mk service rewriting rfl).validate looseRequest).issues = [] := by
    decide +kernel
  have hcompiled : compile service rewriting = .ok ⟨service, rewriting, rfl⟩ := rfl
  exact ⟨_, hcompiled, rfl, (rewritten_conforms hcompiled hkeyed hlasting (by decide) hpasses).2⟩

end Validator

end DataSchema
