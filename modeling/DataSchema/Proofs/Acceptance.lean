import DataSchema.Pattern.Reader
import DataSchema.Proofs.BreakingOff

/-!
What a schema says about a value, told without the evaluator.

`Schema.Accepts` reads a schema as a proposition, by recursion on the schema: the facets of the value
itself, the schemas that govern its parts, and the combinations. Under a policy that rewrites nothing,
the evaluator judges a value by this proposition (`judges_evaluate`): it leaves the value alone and finds
nothing exactly if the value is accepted.
-/

namespace DataSchema

/-- The policy without conversion, removal and defaults. -/
def Options.plain (o : Options) : Options :=
  { o with coerceTypes := false, removeAdditional := false, useDefaults := false }

namespace Schema

/-! ### The reading -/

theorem admit?_of_kind (o : Options) {s : Schema} {value : Json}
    (h : ∀ kind ∈ s.kind, value.hasKind kind = true) : s.admit? o value = some value := by
  rw [admit?]
  cases hk : s.kind with
  | none => rfl
  | some kind => exact if_pos (h kind hk)

theorem admit?_plain_eq_none (o : Options) {s : Schema} {value : Json}
    (h : ¬ ∀ kind ∈ s.kind, value.hasKind kind = true) : s.admit? o.plain value = none := by
  rw [admit?]
  cases hk : s.kind with
  | none => simp [hk] at h
  | some kind => simpa [hk, Options.plain] using h

theorem kindViolations_ne_nil {s : Schema} {value : Json}
    (h : ¬ ∀ kind ∈ s.kind, value.hasKind kind = true) : s.kindViolations ≠ [] := by
  rw [kindViolations]
  cases hk : s.kind with
  | none => simp [hk] at h
  | some kind => simp

theorem mem_of_others {α : Type} {x y : α} {before after : List α} (h : y ∈ before ++ after) :
    y ∈ before ++ x :: after := by
  rw [List.mem_append] at h ⊢
  exact h.imp_right (List.mem_cons_of_mem x)

section Branches

variable {σ : Type} {run : σ → Outcome Json} {value : Json} {q : σ → Prop} {ts : List σ}

theorem judges_anyOfOutcome (h : ∀ t ∈ ts, (run t).Judges value (q t)) :
    (anyOfOutcome value (ts.map run)).Judges value (∃ t, ∃ _ : t ∈ ts, q t) := by
  rw [anyOfOutcome, List.find?_map]
  cases hf : ts.find? ((·.passes) ∘ run) with
  | none =>
    refine ⟨rfl, iff_of_false (by simp [Outcome.passes]) ?_⟩
    rintro ⟨t, ht, hq⟩
    exact List.find?_eq_none.mp hf t ht ((h t ht).passes_iff.mpr hq)
  | some t =>
    have ht := List.mem_of_find?_eq_some hf
    have hp : (run t).passes = true := by simpa using List.find?_some hf
    exact ⟨(h t ht).value_eq, iff_of_true hp ⟨t, ht, (h t ht).passes_iff.mp hp⟩⟩

theorem filter_eq_singleton_iff {p : σ → Bool} {t : σ} :
    ts.filter p = [t] ↔ ∃ before after, ts = before ++ t :: after ∧ p t = true ∧
      ∀ u ∈ before ++ after, ¬ p u = true := by
  rw [List.filter_eq_cons_iff]
  constructor
  · rintro ⟨before, after, hts, hbefore, ht, hafter⟩
    rw [List.filter_eq_nil_iff] at hafter
    exact ⟨before, after, hts, ht, List.forall_mem_append.mpr ⟨hbefore, hafter⟩⟩
  · rintro ⟨before, after, hts, ht, hothers⟩
    rw [List.forall_mem_append] at hothers
    exact ⟨before, after, hts, hothers.1, ht, List.filter_eq_nil_iff.mpr hothers.2⟩

theorem filter_passes_eq_singleton (h : ∀ t ∈ ts, (run t).Judges value (q t)) {t : σ} :
    ts.filter ((·.passes) ∘ run) = [t] ↔ ∃ before after, ts = before ++ t :: after ∧
      q t ∧ ∀ u ∈ before ++ after, ¬ q u := by
  rw [filter_eq_singleton_iff]
  constructor
  · rintro ⟨before, after, rfl, ht, hothers⟩
    refine ⟨before, after, rfl, (h t (by simp)).passes_iff.mp ht, fun u hu hq => ?_⟩
    exact hothers u hu ((h u (mem_of_others hu)).passes_iff.mpr hq)
  · rintro ⟨before, after, rfl, ht, hothers⟩
    refine ⟨before, after, rfl, (h t (by simp)).passes_iff.mpr ht, fun u hu hp => ?_⟩
    exact hothers u hu ((h u (mem_of_others hu)).passes_iff.mp hp)

theorem judges_oneOfOutcome (h : ∀ t ∈ ts, (run t).Judges value (q t)) :
    (oneOfOutcome value (ts.map run)).Judges value
      (∃ before t after, ∃ _ : ts = before ++ t :: after,
        q t ∧ ∀ u, (_ : u ∈ before ++ after) → ¬ q u) := by
  have hsplit : (∃ before t after, ∃ _ : ts = before ++ t :: after,
      q t ∧ ∀ u, (_ : u ∈ before ++ after) → ¬ q u) ↔
        ∃ t, ts.filter ((·.passes) ∘ run) = [t] := by
    simp only [filter_passes_eq_singleton h, exists_prop]
    exact exists_comm
  rw [hsplit, oneOfOutcome, List.filter_map]
  cases hf : ts.filter ((·.passes) ∘ run) with
  | nil => exact ⟨rfl, iff_of_false (by simp [Outcome.passes]) (by simp)⟩
  | cons t rest =>
    cases rest with
    | nil =>
      obtain ⟨before, after, rfl, hq, _⟩ := (filter_passes_eq_singleton h).mp hf
      have ht := h t (by simp)
      exact ⟨ht.value_eq, iff_of_true (ht.passes_iff.mpr hq) ⟨t, rfl⟩⟩
    | cons u rest => exact ⟨rfl, iff_of_false (by simp [Outcome.passes_broken]) (by simp)⟩

theorem judges_notOutcome {x : Outcome Json} {p : Prop} (h : x.Judges value p) :
    (notOutcome value x).Judges value (¬ p) := by
  rw [notOutcome]
  by_cases hp : x.passes = true
  · rw [if_pos hp]
    refine (Outcome.judges_broken value [.not]).congr (iff_of_false (by simp) ?_)
    exact not_not_intro (h.passes_iff.mp hp)
  · rw [if_neg hp]
    exact (Outcome.judges_ok value).congr (iff_of_true trivial (mt h.passes_iff.mpr hp))

end Branches

variable [Pattern.Engine]

/-- What the facets for the kind that a value has ask of it. -/
def ContentHold (s : Schema) : Json → Prop
  | .string text => s.text.Hold text
  | .number n => s.number.Hold n.toDouble
  | .array items => s.array.Hold items
  | .object members => s.KeysHold members
  | _ => True

/-- What a schema asks of a value alone. -/
structure OwnHold (s : Schema) (value : Json) : Prop where
  kind : ∀ kind ∈ s.kind, value.hasKind kind = true
  const : ∀ c ∈ s.const, Json.equivalent c value = true
  enum : ∀ cs ∈ s.enum, ∃ c ∈ cs, Json.equivalent c value = true
  content : s.ContentHold value

/-- `s.Part value t x`: the schema `t` nested in `s` governs the part `x` of the value, an element or a
member. -/
inductive Part (s : Schema) : Json → Schema → Json → Prop where
  | item {items : List Json} {t : Schema} {x : Json} :
    s.items = some t → x ∈ items → Part s (.array items) t x
  /-- A declared member is governed by its property. -/
  | declared {members : List (String × Json)} {name : String} {t : Schema} {x : Json} :
    (name, t) ∈ s.properties → Entries.get? members name = some x → Part s (.object members) t x
  /-- A member that is not declared is governed by every pattern that accepts its key. -/
  | patterned {members : List (String × Json)} {key pattern : String} {t : Schema} {x : Json} :
    (key, x) ∈ members → s.declares key = false → (pattern, t) ∈ s.patternProperties →
      Pattern.accepts pattern key = true → Part s (.object members) t x
  /-- A member that is neither declared nor accepted by a pattern. -/
  | extra {members : List (String × Json)} {key : String} {t : Schema} {x : Json} :
    (key, x) ∈ members → s.isExtra key = true → s.additional = .schema t →
      Part s (.object members) t x

theorem Part.child {s t : Schema} {value x : Json} (h : s.Part value t x) : Child t s := by
  cases h with
  | item ht _ => exact .items ht
  | declared ht _ => exact .property ht
  | patterned _ _ ht _ => exact .pattern ht
  | extra _ _ ht => exact .additional ht

/-- The value is a null that the schema lets through, or it meets the schema's own demands, its parts
are accepted by the schemas that govern them, every branch of `allOf`, some branch of `anyOf` and exactly
one branch of `oneOf` accept it, and the schema under `not` does not. A combination without branches asks
nothing. -/
def Accepts (s : Schema) (value : Json) : Prop :=
  (value = .null ∧ s.nullable = true) ∨
    (s.OwnHold value ∧
      (∀ t x, (_ : s.Part value t x) → Accepts t x) ∧
      (∀ ts, (_ : s.allOf = some ts) → ∀ t, (_ : t ∈ ts) → Accepts t value) ∧
      (∀ ts, (_ : s.anyOf = some ts) → ts ≠ [] → ∃ t, ∃ _ : t ∈ ts, Accepts t value) ∧
      (∀ ts, (hs : s.oneOf = some ts) → ts ≠ [] →
        ∃ before t after, ∃ _ : ts = before ++ t :: after,
          Accepts t value ∧ ∀ u, (hu : u ∈ before ++ after) → ¬ Accepts u value) ∧
      ∀ t, (_ : s.not = some t) → ¬ Accepts t value)
termination_by sizeOf s
decreasing_by
  · exact (Part.child ‹_›).sizeOf_lt
  · exact (Child.allOf ‹_› ‹_›).sizeOf_lt
  · exact (Child.anyOf ‹_› ‹_›).sizeOf_lt
  · exact (Child.oneOf hs (‹ts = _› ▸ List.mem_append_right before List.mem_cons_self)).sizeOf_lt
  · exact (Child.oneOf hs (‹ts = _› ▸ mem_of_others hu)).sizeOf_lt
  · exact (Child.not ‹_›).sizeOf_lt

/-- Without combinations there are only the demands on the value itself and those on its parts. -/
theorem accepts_uncombined_iff {s : Schema} (h : s.hasCombination = false) (value : Json) :
    s.Accepts value ↔ (value = .null ∧ s.nullable = true) ∨
      (s.OwnHold value ∧ ∀ t x, s.Part value t x → t.Accepts x) := by
  obtain ⟨hone, hall, hany, hnot⟩ := hasCombination_eq_false.mp h
  rw [Accepts]
  simp [hone, hall, hany, hnot]

/-! ### Schemas of one kind -/

/-- Without facets nothing is asked of the content of a value. -/
theorem contentHold_of_no_facets {s : Schema} {value : Json} (htext : s.text = {}) (hnumber : s.number = {})
    (harray : s.array = {}) (hobject : s.object = {}) (hrequired : s.required = none)
    (hopen : s.isOpen = true) : s.ContentHold value := by
  cases value with
  | string text =>
    rw [ContentHold, htext]
    constructor <;> simp
  | number n =>
    rw [ContentHold, hnumber]
    constructor <;> simp
  | array items =>
    rw [ContentHold, harray]
    constructor <;> simp
  | object members =>
    have hcounts : s.object.Hold members := by
      rw [hobject]
      constructor <;> simp
    exact ⟨by simp [requiredNames, hrequired], hcounts, by simp [hopen]⟩
  | _ => trivial

theorem not_part_ofKind {kind : Kind} {value x : Json} {t : Schema} :
    ¬ (ofKind kind).Part value t x := fun hpart => nomatch hpart

theorem ownHold_ofKind_iff {kind : Kind} {value : Json} :
    (ofKind kind).OwnHold value ↔ value.hasKind kind = true := by
  have hcontent : (ofKind kind).ContentHold value := contentHold_of_no_facets rfl rfl rfl rfl rfl rfl
  exact ⟨fun h => h.kind kind rfl, fun h => ⟨by simpa [ofKind] using h, nofun, nofun, hcontent⟩⟩

theorem accepts_ofKind {kind : Kind} {value : Json} :
    (ofKind kind).Accepts value ↔ value.hasKind kind = true := by
  have hflag : (ofKind kind).nullable = false := rfl
  simp [accepts_uncombined_iff (s := ofKind kind) rfl, hflag, not_part_ofKind, ownHold_ofKind_iff]

/-! ### The evaluator judges by the reading -/

theorem prepare_plain (o : Options) (s : Schema) (members : List (String × Json)) :
    s.prepare o.plain members = members := rfl

section Stages

variable {o : Options} {s : Schema} {whole : Bool} {P : Schema → Json → Prop}
  {members : List (String × Json)}

theorem judges_runDeclared
    (h : ∀ t x, s.Part (.object members) t x → (t.run o false x).Judges whole x (P t x)) :
    (s.runDeclared o members).Judges whole members
      (∀ e ∈ s.properties, ∀ x, Entries.get? members e.1 = some x → P e.2 x) :=
  Run.judges_inTurn fun e he => Run.judges_atMember fun x hx => h e.2 x (.declared he hx)

theorem judges_runPatterned
    (h : ∀ t x, s.Part (.object members) t x → (t.run o false x).Judges whole x (P t x)) :
    (s.runPatterned o members).Judges whole members
      (∀ e ∈ members, ¬ s.declares e.1 = true → ∀ p ∈ s.patternProperties,
        Pattern.accepts p.1 e.1 = true → P p.2 e.2) := by
  refine Run.judges_eachMember fun e he => Run.judges_unless fun hd => ?_
  refine Run.judges_inTurn fun p hp => Run.judges_if fun ha => ?_
  exact h p.2 e.2 (.patterned he (Bool.eq_false_iff.mpr hd) hp ha)

theorem judges_runExtra
    (h : ∀ t x, s.Part (.object members) t x → (t.run o false x).Judges whole x (P t x)) :
    (s.runExtra o members).Judges whole members
      (∀ t, s.additional = .schema t → ∀ e ∈ members, s.isExtra e.1 = true → P t e.2) := by
  rw [runExtra]
  cases had : s.additional with
  | schema t =>
    refine (Run.judges_eachMember fun e he => Run.judges_if fun hx =>
      h t e.2 (.extra he hx had)).congr ?_
    simp
  | unspecified => exact (Run.judges_ok members).congr (by simp)
  | allowed _ => exact (Run.judges_ok members).congr (by simp)

theorem judges_runMembers
    (h : ∀ t x, s.Part (.object members) t x → (t.run o false x).Judges whole x (P t x)) :
    (s.runMembers o members).Judges whole members
      (s.KeysHold members ∧ ∀ t x, s.Part (.object members) t x → P t x) := by
  have hkeys := (Run.judges_broken whole members (s.keyViolations members)).congr
    (s.keyViolations_eq_nil members)
  refine (hkeys.andThen _ ((judges_runDeclared h).andThen _
    ((judges_runPatterned h).andThen _ (judges_runExtra h)))).congr (and_congr_right fun _ => ?_)
  constructor
  · rintro ⟨hdeclared, hpatterned, hextra⟩ t x hpart
    cases hpart with
    | declared ht hx => exact hdeclared _ ht x hx
    | patterned he hd ht ha => exact hpatterned _ he (Bool.eq_false_iff.mp hd) _ ht ha
    | extra he hx ht => exact hextra t ht _ he hx
  · intro hparts
    exact ⟨fun e he x hx => hparts e.2 x (.declared he hx),
      fun e he hd p hp ha => hparts p.2 e.2 (.patterned he (Bool.eq_false_iff.mpr hd) hp ha),
      fun t ht e he hx => hparts t e.2 (.extra he hx ht)⟩

theorem judges_runElements (listed : Bool) {items : List Json}
    (h : ∀ t x, s.Part (.array items) t x → (t.run o false x).Judges whole x (P t x)) :
    (s.runElements o listed items).Judges whole items (∀ t x, s.Part (.array items) t x → P t x) := by
  rw [runElements]
  cases hit : s.items with
  | some t =>
    have hall := Run.judges_eachItem (o.stops || listed) 0 fun x hx => h t x (.item hit hx)
    refine hall.congr ⟨?_, fun hparts x hx => hparts t x (.item hit hx)⟩
    rintro hparts t' x ⟨ht', hx⟩
    rw [hit] at ht'
    cases ht'
    exact hparts x hx
  | none =>
    refine (Run.judges_ok items).congr (iff_of_true trivial ?_)
    rintro t x ⟨ht, _⟩
    rw [hit] at ht
    cases ht

/-- The content of a value is judged by the facets of its kind and by what its parts are judged by. A text
that meets its facets is none at which the run breaks off. -/
theorem judges_runContent (whole listed : Bool) (value : Json)
    (hprepare : ∀ members, value = .object members → s.prepare o members = members)
    (h : ∀ t x, s.Part value t x → (t.run o false x).Judges whole x (P t x)) :
    (s.runContent o listed value).Judges whole value
      (s.ContentHold value ∧ ∀ t x, s.Part value t x → P t x) := by
  have hnone : (∀ items, value ≠ .array items) → (∀ members, value ≠ .object members) →
      ∀ t x, s.Part value t x → P t x := by
    rintro harray hobject t x hpart
    cases hpart with
    | item => exact absurd rfl (harray _)
    | declared => exact absurd rfl (hobject _)
    | patterned => exact absurd rfl (hobject _)
    | extra => exact absurd rfl (hobject _)
  cases value with
  | string text =>
    have hends : s.text.violations text = [] → s.text.breaksOff text = false :=
      fun hnil => Bool.eq_false_iff.mpr fun hb => TextFacets.violations_of_breaksOff hb hnil
    refine ⟨rfl, Iff.trans ?_ (and_iff_left (hnone (by simp) (by simp))).symm⟩
    rw [ContentHold, ← s.text.violations_eq_nil, Run.Clears, runContent, Outcome.passes_broken]
    exact and_iff_left_of_imp fun hnil _ => hends hnil
  | number n =>
    refine (Run.judges_broken whole (Json.number n) (s.number.violations n.toDouble)).congr ?_
    rw [s.number.violations_eq_nil, and_iff_left (hnone (by simp) (by simp)), ContentHold]
  | array items =>
    have hitems := (Run.judges_broken whole items (s.array.violations items)).congr
      (s.array.violations_eq_nil items)
    exact (hitems.andThen _ (judges_runElements listed h)).map Json.array
  | object members =>
    rw [runContent, hprepare members rfl]
    exact (judges_runMembers h).map Json.object
  | null =>
    refine (Run.judges_ok Json.null).congr (iff_of_true trivial ?_)
    exact ⟨trivial, hnone (by simp) (by simp)⟩
  | bool b =>
    refine (Run.judges_ok (Json.bool b)).congr (iff_of_true trivial ?_)
    exact ⟨trivial, hnone (by simp) (by simp)⟩

theorem judges_evaluateContent (listed : Bool) (value : Json)
    (hprepare : ∀ members, value = .object members → s.prepare o members = members)
    (h : ∀ t x, s.Part value t x → (t.evaluate o false x).Judges x (P t x)) :
    (s.evaluateContent o listed value).Judges value
      (s.ContentHold value ∧ ∀ t x, s.Part value t x → P t x) := by
  rw [← toOutcome_runContent, ← Run.judges_false_iff]
  exact judges_runContent false listed value hprepare fun t x hpart => Run.judges_false_iff.mpr (h t x hpart)

end Stages

theorem judges_ofBranches {combine : Json → List (Outcome Json) → Outcome Json} {o : Options}
    {value : Json} {branches : Option (List Schema)} {p : List Schema → Prop}
    (h : ∀ ts, branches = some ts →
      (combine value (ts.map fun t => t.evaluate o false value)).Judges value (p ts)) :
    (ofBranches combine o branches value).Judges value
      (∀ ts, (_ : branches = some ts) → ts ≠ [] → p ts) := by
  rw [ofBranches.eq_def]
  split
  · next t rest => exact (h (t :: rest) rfl).congr (by simp)
  · next hne =>
    refine (Outcome.judges_ok value).congr (iff_of_true trivial fun ts hts hnil => ?_)
    obtain ⟨t, rest, rfl⟩ := List.exists_cons_of_ne_nil hnil
    exact absurd hts (hne t rest)

/-- The combinations are judged by what their branches are judged by. -/
theorem judges_evaluateCombinations {o : Options} {s : Schema} {value : Json} {q : Schema → Prop}
    (listed : Bool)
    (h : ∀ t, Child t s → ∀ listed, (t.evaluate o listed value).Judges value (q t)) :
    (s.evaluateCombinations o listed value).Judges value
      ((∀ ts, (_ : s.allOf = some ts) → ∀ t, (_ : t ∈ ts) → q t) ∧
        (∀ ts, (_ : s.anyOf = some ts) → ts ≠ [] → ∃ t, ∃ _ : t ∈ ts, q t) ∧
        (∀ ts, (_ : s.oneOf = some ts) → ts ≠ [] → ∃ before t after,
          ∃ _ : ts = before ++ t :: after, q t ∧ ∀ u, (_ : u ∈ before ++ after) → ¬ q u) ∧
        ∀ t, (_ : s.not = some t) → ¬ q t) := by
  have hall : (Outcome.inTurn o.stops (evaluate o listed) (s.allOf.getD []) value).Judges value
      (∀ ts, (_ : s.allOf = some ts) → ∀ t, (_ : t ∈ ts) → q t) := by
    cases hs : s.allOf with
    | none => exact (Outcome.judges_ok value).congr (by simp)
    | some ts =>
      refine (Outcome.judges_inTurn o.stops fun t ht => h t (.allOf hs ht) listed).congr ?_
      simp
  have hany := judges_ofBranches fun ts hs =>
    judges_anyOfOutcome fun t ht => h t (.anyOf hs ht) false
  have hone := judges_ofBranches fun ts hs =>
    judges_oneOfOutcome fun t ht => h t (.oneOf hs ht) false
  have hnot : (s.evaluateNegated o value).Judges value (∀ t, (_ : s.not = some t) → ¬ q t) := by
    rw [evaluateNegated]
    cases hs : s.not with
    | none => exact (Outcome.judges_ok value).congr (by simp)
    | some t => exact (judges_notOutcome (h t (.not hs) false)).congr (by simp)
  exact hall.andThen _ (hany.andThen _ (hone.andThen _ hnot))

/-- Under a policy that rewrites nothing, evaluation leaves the value as it is and finds nothing exactly
if the schema accepts the value. -/
theorem judges_evaluate (o : Options) (s : Schema) : ∀ (listed : Bool) (value : Json),
    (s.evaluate o.plain listed value).Judges value (s.Accepts value) := by
  induction s using Schema.induction with
  | step s ih =>
    intro listed value
    rw [Accepts]
    by_cases hnull : value = .null ∧ s.nullable = true
    · rw [evaluate_null hnull]
      exact (Outcome.judges_ok value).congr (iff_of_true trivial (.inl hnull))
    · rw [or_iff_right hnull]
      by_cases hkind : ∀ kind ∈ s.kind, value.hasKind kind = true
      · rw [evaluate_admitted hnull (admit?_of_kind o.plain hkind)]
        -- no stage rewrites the value, so each is judged on the value itself
        have hown := (Outcome.judges_broken value (s.valueViolations value)).congr
          (s.valueViolations_eq_nil value)
        have hcontent := judges_evaluateContent listed value
          (fun members _ => prepare_plain o s members) fun t x hpart => ih t hpart.child false x
        have hcombined := judges_evaluateCombinations listed fun t ht listed => ih t ht listed value
        refine ((hown.andThen _ hcontent).andThen _ hcombined).congr ?_
        constructor
        · rintro ⟨⟨⟨hconst, henum⟩, hcontent, hparts⟩, hcombined⟩
          exact ⟨⟨hkind, hconst, henum, hcontent⟩, hparts, hcombined⟩
        · rintro ⟨⟨_, hconst, henum, hcontent⟩, hparts, hcombined⟩
          exact ⟨⟨⟨hconst, henum⟩, hcontent, hparts⟩, hcombined⟩
      · rw [evaluate_refused hnull (admit?_plain_eq_none o hkind)]
        refine (Outcome.judges_broken value s.kindViolations).congr (iff_of_false ?_ ?_)
        · exact kindViolations_ne_nil hkind
        · exact fun haccepts => hkind haccepts.1.kind

/-! ### Runs that succeed -/

/-- Under a policy that rewrites nothing, the run over the value comes to its end and finds nothing. -/
def Clears (o : Options) (s : Schema) (value : Json) : Prop := (s.run o.plain false value).Succeeds

/-- A run succeeds by the demands on the value itself, the runs over its parts, and the combinations. -/
theorem succeeds_run_iff (o : Options) (s : Schema) (listed : Bool) (value : Json) :
    (s.run o.plain listed value).Succeeds ↔ (value = .null ∧ s.nullable = true) ∨
      (s.OwnHold value ∧ (∀ t x, s.Part value t x → t.Clears o x) ∧
        (s.runCombinations o.plain listed value).Succeeds) := by
  by_cases hnull : value = .null ∧ s.nullable = true
  · rw [run_null hnull]
    exact iff_of_true ⟨rfl, rfl⟩ (.inl hnull)
  · rw [or_iff_right hnull]
    by_cases hkind : ∀ kind ∈ s.kind, value.hasKind kind = true
    · have hown := (Run.judges_broken true value (s.valueViolations value)).congr
        (s.valueViolations_eq_nil value)
      have hcontent := judges_runContent true (P := fun t x => t.Clears o x) listed value
        (fun members _ => prepare_plain o s members) fun t x _ =>
          ⟨(t.judges_evaluate o false x).value_eq, Run.clears_true⟩
      have hbefore := hown.andThen o.plain.stops hcontent
      rw [run_admitted hnull (admit?_of_kind o.plain hkind), ← Run.clears_true, Run.clears_andThen,
        hbefore.clears_iff, hbefore.value_eq, Run.clears_true]
      constructor
      · rintro ⟨⟨⟨hconst, henum⟩, hcontent, hparts⟩, hcombined⟩
        exact ⟨⟨hkind, hconst, henum, hcontent⟩, hparts, hcombined⟩
      · rintro ⟨⟨_, hconst, henum, hcontent⟩, hparts, hcombined⟩
        exact ⟨⟨⟨hconst, henum⟩, hcontent, hparts⟩, hcombined⟩
    · rw [run_refused hnull (admit?_plain_eq_none o hkind)]
      refine iff_of_false (fun h => ?_) fun h => hkind h.1.kind
      exact kindViolations_ne_nil hkind ((Outcome.passes_broken value _).mp h.1)

theorem runCombinations_of_uncombined {o : Options} {listed : Bool} {s : Schema}
    (h : s.hasCombination = false) : s.runCombinations o listed = Run.ok := by
  obtain ⟨hone, hall, hany, hnot⟩ := hasCombination_eq_false.mp h
  funext value
  rw [runCombinations, hall, hany, hone]
  simp only [runBranches, runNegated, hnot, Option.getD_none, Run.inTurn, Run.ok_andThen]

/-- A judgement of values by schemas reads those without combinations as `Accepts` does: by the demands on the
value itself, and by what it says of the parts. -/
def ReadsParts (A : Schema → Json → Prop) : Prop :=
  ∀ ⦃s : Schema⦄, s.hasCombination = false → ∀ value, A s value ↔
    (value = .null ∧ s.nullable = true) ∨ (s.OwnHold value ∧ ∀ t x, s.Part value t x → A t x)

theorem readsParts_accepts : ReadsParts Accepts := fun _ => accepts_uncombined_iff

theorem readsParts_clears (o : Options) : ReadsParts (Clears o) := by
  intro s h value
  have hend : ((Run.ok value : Run Json).Succeeds) := ⟨rfl, rfl⟩
  rw [Clears, succeeds_run_iff, runCombinations_of_uncombined h, and_iff_left hend]

end Schema

namespace Validator

/-- A value passes a validator under a policy that rewrites nothing exactly if the schema's run clears it. -/
theorem passes_plain_iff [Pattern.Engine] {s : Schema} {o : Options} {v : Validator}
    (h : compile s o.plain = .ok v) (value : Json) : v.Passes value ↔ s.Clears o value := by
  obtain ⟨rfl, hoptions⟩ := compile_eq_ok h
  rw [passes_iff, validate, Report.issues_ofOutcome_eq_nil, breaksOff, hoptions, and_comm]
  rfl

/-- As long as the run does not break off, a validator under a policy that rewrites nothing reports no issue
exactly if the schema accepts the value, and hands back the value itself whatever it reports. -/
theorem validate_plain_iff [Pattern.Engine] {s : Schema} {o : Options} {v : Validator}
    (h : compile s o.plain = .ok v) (value : Json) :
    ((v.validate value).issues = [] ↔ s.Accepts value) ∧ (v.validate value).value = value := by
  obtain ⟨rfl, hoptions⟩ := compile_eq_ok h
  have hj := v.schema.judges_evaluate o false value
  rw [validate, hoptions]
  exact ⟨(Report.issues_ofOutcome_eq_nil _ _).trans hj.passes_iff, hj.value_eq⟩

/-- Under a policy that rewrites nothing, a report has no issue exactly if the schema accepts the value, and
comes with the value itself whatever it says. There is a report of every value if the schema asks for no time.
And if it leaves nothing to choose, exactly the values that it accepts pass. -/
theorem report_plain_iff [Pattern.Engine] {s : Schema} {o : Options} {v : Validator}
    (h : compile s o.plain = .ok v) (value : Json) :
    (∀ r, v.validate? value = some r → (r.issues = [] ↔ s.Accepts value) ∧ r.value = value) ∧
      (s.Timeless → ∃ r, v.validate? value = some r) ∧
      (s.ChoiceFree → (v.Passes value ↔ s.Accepts value)) := by
  have hiff := validate_plain_iff h value
  obtain ⟨rfl, -⟩ := compile_eq_ok h
  refine ⟨fun r hr => ?_, fun htimeless => exists_report htimeless value, fun hfree => ?_⟩
  · obtain ⟨-, rfl⟩ := validate?_eq_some.mp hr
    exact hiff
  · rw [← hiff.1]
    exact ⟨fun hpasses => (passes_iff.mp hpasses).2,
      fun hissues => ⟨_, validate?_of_choiceFree hfree hissues, hissues⟩⟩

/-- An object with a name, and with a mark that is a text or null but not the empty text. -/
def marked : Schema where
  kind := some .object
  additional := .allowed false
  properties := [("name", Schema.ofKind .string),
    ("mark", { oneOf := some [Schema.ofKind .string, Schema.ofKind .null],
               not := some (Schema.constant (.string "")) })]
  required := some ["name"]

theorem report_plain_marked :
    ∃ v, compile marked (Options.plain {}) = .ok v ∧
      v.validate? (.object [("name", .string "n"), ("mark", .null)]) =
        some ⟨.object [("name", .string "n"), ("mark", .null)], []⟩ ∧
      marked.Accepts (.object [("name", .string "n"), ("mark", .null)]) ∧
      ¬ marked.Accepts (.object [("name", .string "n"), ("mark", .string "")]) := by
  have hcompiled : compile marked (Options.plain {}) = .ok ⟨marked, Options.plain {}, rfl⟩ := rfl
  have hpasses : (Validator.mk marked (Options.plain {}) rfl).validate?
      (.object [("name", .string "n"), ("mark", .null)]) = some _ := rfl
  have hfails : (Validator.mk marked (Options.plain {}) rfl).validate?
      (.object [("name", .string "n"), ("mark", .string "")]) = some _ := rfl
  exact ⟨_, hcompiled, hpasses, ((report_plain_iff hcompiled _).1 _ hpasses).1.mp rfl,
    fun h => absurd (((report_plain_iff hcompiled _).1 _ hfails).1.mpr h) (by decide)⟩

/-- A time, or anything else. -/
def timeOrAny : Schema := { anyOf := some [{ text := { format := some "time" } }, {}] }

/-- The second branch accepts whatever the first one refuses, but the run breaks off in the first one. -/
theorem accepted_not_passes :
    ¬ ∀ (s : Schema) (o : Options) (v : Validator) (value : Json), compile s o.plain = .ok v →
      s.Accepts value → v.Passes value := by
  intro hall
  have hcompiled : compile timeOrAny (Options.plain {}) = .ok ⟨timeOrAny, Options.plain {}, rfl⟩ := rfl
  have haccepts : timeOrAny.Accepts (.string Format.arabicTime) :=
    (validate_plain_iff hcompiled _).1.mp (by decide)
  obtain ⟨hend, -⟩ := passes_iff.mp (hall _ _ _ _ hcompiled haccepts)
  exact absurd hend (by decide)

end Validator

end DataSchema
