import DataSchema.Pattern.Reader
import DataSchema.Proofs.Evaluation
import DataSchema.Proofs.Facets
import DataSchema.Proofs.Handle
import DataSchema.Proofs.Validator

/-!
Validating lists.

A list is validated as an array whose elements the schema of the handle governs, by a validator of its
own. Its verdict is told by the verdicts on the single values (`ListVerdict`): a list passes if it is not
empty and every element passes by itself. The run stops at the first element that fails, whose issues
are reported as issues of that element of the list. If the first element that does not pass is one on which
the run breaks off, there is no verdict on the list.
-/

namespace DataSchema

namespace Run

variable {α : Type} {rule : α → Run α} {before after : List α} {x : α}

/-! ### Runs over elements -/

/-- Elements on which the run succeeds are passed over, and it goes on behind them. -/
theorem eachItem_append (stop : Bool) (rest : List α) : ∀ {before : List α} (index : Nat),
    (∀ y ∈ before, (rule y).Succeeds) →
      eachItem stop rule index (before ++ rest) =
        (eachItem stop rule (index + before.length) rest).map
          (before.map (fun y => (rule y).value) ++ ·)
  | [], _, _ => rfl
  | y :: before, index, h => by
    rw [List.forall_mem_cons] at h
    have hok : ((rule y).under (toString index)).map (fun y => (y, before ++ rest)) =
        ok ((rule y).value, before ++ rest) := by
      rw [h.1.eq_ok]
      rfl
    rw [List.cons_append, eachItem_cons, cons, hok, ok_andThen, eachItem_append stop rest (index + 1) h.2,
      List.length_cons, Nat.add_right_comm, Nat.add_assoc]
    rfl

theorem eachItem_of_succeeds (stop : Bool) {items : List α} (index : Nat)
    (h : ∀ y ∈ items, (rule y).Succeeds) :
    eachItem stop rule index items = ok (items.map fun y => (rule y).value) := by
  have hend := eachItem_append stop [] index h
  rw [List.append_nil] at hend
  rw [hend, eachItem]
  exact congrArg ok (List.append_nil _)

/-- A run that is to stop stops at the first element that fails. -/
theorem eachItem_of_fails (index : Nat) (hbefore : ∀ y ∈ before, (rule y).Succeeds)
    (hx : ¬ (rule x).passes = true) :
    eachItem true rule index (before ++ x :: after) =
      ((rule x).under (toString (index + before.length))).map fun left =>
        before.map (fun y => (rule y).value) ++ left :: after := by
  have hstop : (true && !((rule x).under (toString (index + before.length))).passes) = true := by
    rw [Bool.true_and, Bool.not_eq_true', ← Bool.not_eq_true]
    exact (Outcome.passes_under _ (rule x).toOutcome).symm ▸ hx
  rw [eachItem_append true (x :: after) index hbefore, eachItem, if_pos hstop]
  rfl

/-- A run that is to stop goes on behind an element only if that passes. -/
theorem breaksOff_eachItem_cons (rule : α → Run α) (x : α) (rest : List α) (index : Nat) :
    (eachItem true rule index (x :: rest)).breaksOff =
      ((rule x).breaksOff || ((rule x).passes && (eachItem true rule (index + 1) rest).breaksOff)) := by
  have hpasses : ((rule x).under (toString index)).passes = (rule x).passes :=
    Outcome.passes_under _ _
  rw [eachItem, hpasses]
  cases (rule x).passes with
  | true => rfl
  | false => exact (Bool.or_false _).symm

/-- A run that is to stop breaks off at an element before which it succeeds on every element. -/
theorem breaksOff_eachItem_iff : ∀ {items : List α} (index : Nat),
    (eachItem true rule index items).breaksOff = true ↔ ∃ before x after,
      items = before ++ x :: after ∧ (∀ y ∈ before, (rule y).Succeeds) ∧ (rule x).breaksOff = true
  | [], index => by simp [eachItem, ok]
  | x :: rest, index => by
    constructor
    · intro h
      cases hx : (rule x).breaksOff with
      | true => exact ⟨[], x, rest, rfl, by simp, hx⟩
      | false =>
        rw [breaksOff_eachItem_cons, hx, Bool.false_or, Bool.and_eq_true] at h
        obtain ⟨before, y, after, rfl, hbefore, hy⟩ := (breaksOff_eachItem_iff (index + 1)).mp h.2
        exact ⟨x :: before, y, after, rfl, List.forall_mem_cons.mpr ⟨⟨h.1, hx⟩, hbefore⟩, hy⟩
    · rintro ⟨before, y, after, hitems, hbefore, hy⟩
      rw [hitems, eachItem_append true (y :: after) index hbefore, map, breaksOff_eachItem_cons, hy,
        Bool.true_or]

/-- A run over elements succeeds exactly if it succeeds on every element. -/
theorem succeeds_eachItem_iff : ∀ {items : List α} (index : Nat),
    (eachItem true rule index items).Succeeds ↔ ∀ y ∈ items, (rule y).Succeeds
  | [], _ => iff_of_true ⟨rfl, rfl⟩ (by simp)
  | x :: rest, index => by
    rw [List.forall_mem_cons, ← succeeds_eachItem_iff (index + 1)]
    simp only [Succeeds, breaksOff_eachItem_cons, toOutcome_eachItem, Outcome.passes_eachItem,
      List.forall_mem_cons, Bool.or_eq_false_iff, Bool.and_eq_false_iff]
    constructor
    · rintro ⟨⟨hx, hrest⟩, hend, hends⟩
      exact ⟨⟨hx, hend⟩, hrest, hends.resolve_left (by simp [hx])⟩
    · rintro ⟨⟨hx, hend⟩, hrest, hends⟩
      exact ⟨⟨hx, hrest⟩, hend, .inr hends⟩

/-- Runs a rule on the elements of a list that must not be empty, up to the first that fails. -/
def upToFailure (rule : Json → Run Json) : List Json → Run (List Json)
  | [] => broken [] [.minItems 1]
  | x :: rest => eachItem true rule 0 (x :: rest)

theorem upToFailure_of_ne_nil (rule : Json → Run Json) {items : List Json} (h : items ≠ []) :
    upToFailure rule items = eachItem true rule 0 items := by
  obtain ⟨x, rest, rfl⟩ := List.exists_cons_of_ne_nil h
  rfl

end Run

/-! ### The schema of a list -/

namespace Handle

variable [Pattern.Engine]

theorem check_listSchema {strict : Bool} {s : Schema} (h : s.check strict = .ok ()) :
    (listSchema s).check strict = .ok () := by
  rw [listSchema, Schema.arrayOf, Schema.check]
  simp only [Schema.checkOption, h]
  cases strict <;> rfl

omit [Pattern.Engine] in
theorem violations_listSchema (s : Schema) (items : List Json) :
    (listSchema s).array.violations items = if items = [] then [.minItems 1] else [] := by
  cases items with
  | nil => rfl
  | cons x rest => simp [ArrayFacets.violations, brokenFacet, listSchema]

theorem run_listSchema (o : Options) (s : Schema) (items : List Json) :
    (listSchema s).run o true (.array items) =
      (Run.upToFailure (s.run o false) items).map Json.array := by
  have hnull : ¬ (Json.array items = .null ∧ (listSchema s).nullable = true) := nofun
  have hown : Run.broken (Json.array items) ((listSchema s).valueViolations (.array items)) =
    .ok (.array items) := rfl
  -- only the elements and their number are asked about; every other stage is silent
  have helements : (listSchema s).runElements o true = Run.eachItem true (s.run o false) 0 := by
    funext items
    change Run.eachItem (o.stops || true) (s.run o false) 0 items = _
    rw [Bool.or_true]
  have hcontent : (listSchema s).runContent o true (.array items) =
      (Run.upToFailure (s.run o false) items).map Json.array := by
    rw [Schema.runContent, helements, violations_listSchema]
    cases items with
    | nil => cases o.stops <;> rfl
    | cons x rest =>
      rw [if_neg (List.cons_ne_nil x rest)]
      exact congrArg (Run.map Json.array) (Run.ok_andThen _ _)
  have hcombined : (listSchema s).runCombinations o true = Run.ok := by
    funext value
    change (Run.ok value).andThen o.stops (fun value => (Run.ok value).andThen o.stops
      fun value => (Run.ok value).andThen o.stops Run.ok) = _
    simp only [Run.ok_andThen]
  rw [Schema.run_admitted hnull rfl, hown, Run.ok_andThen, hcontent, hcombined, Run.andThen_ok]

end Handle

/-! ### Issues of elements -/

theorem Pointer.escapeChar_of_isDigit {c : Char} (h : c.isDigit = true) : escapeChar c = [c] := by
  rw [escapeChar.eq_def]
  split
  · exact absurd h (by decide)
  · exact absurd h (by decide)
  · rfl

/-- An index stands in a pointer as it is. -/
theorem Pointer.token_toString (n : Nat) : token (toString n) = "/" ++ toString n := by
  have hdigits : ∀ cs : List Char, (∀ c ∈ cs, c.isDigit = true) → cs.flatMap escapeChar = cs := by
    intro cs
    induction cs with
    | nil => exact fun _ => rfl
    | cons c cs ih =>
      intro h
      rw [List.forall_mem_cons] at h
      rw [List.flatMap_cons, escapeChar_of_isDigit h.1, ih h.2]
      rfl
  have hrepr : (toString n).toList.flatMap escapeChar = (toString n).toList := by
    refine hdigits _ fun c hc => ?_
    rw [Nat.toString_eq_repr, Nat.toList_repr] at hc
    exact Nat.isDigit_of_mem_toDigits (by decide) (by decide) hc
  rw [token, hrepr, String.ofList_cons, String.ofList_toList]
  rfl

/-- The issue as one of the list that has the value at an index. -/
def Issue.ofElement (index : Nat) (issue : Issue) : Issue :=
  { issue with instancePath := "/" ++ toString index ++ issue.instancePath }

theorem Finding.toIssue_under (index : Nat) (f : Finding) :
    (f.under (toString index)).toIssue = f.toIssue.ofElement index := by
  rw [Finding.under, toIssue, toIssue, Issue.ofElement, Pointer.render, Pointer.render,
    List.foldr_cons, Pointer.token_toString]

/-- The issues of an element are reported in their order. -/
theorem Outcome.issues_under {α : Type} (index : Nat) (x : Outcome α) :
    (x.under (toString index)).findings.map Finding.toIssue =
      (x.findings.map Finding.toIssue).map (·.ofElement index) := by
  rw [under, List.map_map, List.map_map]
  exact List.map_congr_left fun f _ => f.toIssue_under index

/-! ### Verdicts -/

namespace Handle

/-- The verdict of an outcome when every finding is reported. -/
def verdictOf {α : Type} (x : Outcome α) : Verdict α :=
  (x.value, if x.passes then none else some (.invalid (x.findings.map Finding.toIssue) true))

section Verdicts

variable {α : Type} {x : Outcome α}

theorem verdictOf_eq_none : (verdictOf x).2 = none ↔ x.passes = true := by
  rw [verdictOf]
  cases x.passes <;> simp

theorem verdictOf_of_fails (h : ¬ x.passes = true) :
    verdictOf x = (x.value, some (.invalid (x.findings.map Finding.toIssue) true)) := by
  rw [verdictOf, if_neg h]

theorem verdictOf_eq_some {r : Rejection} (h : (verdictOf x).2 = some r) :
    ¬ x.passes = true ∧ r = .invalid (x.findings.map Finding.toIssue) true := by
  rw [verdictOf] at h
  by_cases hp : x.passes = true
  · rw [if_pos hp] at h; cases h
  · rw [if_neg hp] at h; cases h; exact ⟨hp, rfl⟩

theorem verdict_ofOutcome [Pattern.Engine] {v : Validator} (h : v.options.allErrors = true) :
    verdict v (Report.ofOutcome v.options x) = verdictOf x := by
  rw [verdict, Report.passes_ofOutcome, verdictOf, Report.ofOutcome, h]
  rfl

end Verdicts

/-- The verdict on a run when every finding is reported; there is none if the run breaks off. -/
def verdictOf? {α : Type} (x : Run α) : Option (Verdict α) :=
  if x.breaksOff then none else some (verdictOf x.toOutcome)

section Runs

variable {α : Type} {x : Run α}

theorem verdictOf?_eq_none : verdictOf? x = none ↔ x.breaksOff = true := by
  rw [verdictOf?]
  cases x.breaksOff <;> simp

theorem verdictOf?_eq_some {verdict : Verdict α} :
    verdictOf? x = some verdict ↔ x.breaksOff = false ∧ verdictOf x.toOutcome = verdict := by
  rw [verdictOf?]
  cases x.breaksOff <;> simp

theorem verdictOf?_ok (value : α) : verdictOf? (.ok value) = some (value, none) := rfl

/-- A value is accepted if the run on it succeeds. -/
theorem exists_accepted_iff : (∃ left, verdictOf? x = some (left, none)) ↔ x.Succeeds := by
  constructor
  · rintro ⟨left, h⟩
    obtain ⟨hend, hx⟩ := verdictOf?_eq_some.mp h
    exact ⟨verdictOf_eq_none.mp (congrArg Prod.snd hx), hend⟩
  · intro h
    exact ⟨x.value, (congrArg verdictOf? h.eq_ok).trans (verdictOf?_ok _)⟩

theorem verdict_ofRun? [Pattern.Engine] {v : Validator} (h : v.options.allErrors = true) :
    (Report.ofRun? v.options x).map (verdict v) = verdictOf? x := by
  rw [Report.ofRun?, verdictOf?, apply_ite (Option.map (verdict v)), Option.map_some,
    verdict_ofOutcome h]
  rfl

end Runs

/-- The verdict on a list, by the verdicts on its elements. -/
structure ListVerdict (each : Json → Option (Verdict Json)) (values : List Json)
    (result : Option (Verdict (List Json))) : Prop where
  /-- There is none if there is none on some element, and all before that are accepted. -/
  eq_none_iff : result = none ↔ ∃ before x after, values = before ++ x :: after ∧
    (∀ y ∈ before, ∃ left, each y = some (left, none)) ∧ each x = none
  length_eq : ∀ verdict, result = some verdict → verdict.1.length = values.length
  accepted_iff : (∃ left, result = some (left, none)) ↔
    values ≠ [] ∧ ∀ x ∈ values, ∃ left, each x = some (left, none)
  accepted : ∀ left, result = some (left, none) → values.map each = left.map fun y => some (y, none)
  empty : values = [] →
    result = some ([], some (.invalid [⟨"", .minItems, "must NOT have fewer than 1 items"⟩] true))
  /-- The first element that fails decides the verdict; what comes behind it is left alone. -/
  failing : ∀ before x after left r, values = before ++ x :: after →
    (∀ y ∈ before, ∃ left, each y = some (left, none)) → each x = some (left, some r) →
      ∃ issues lefts, r = .invalid issues true ∧
        before.map each = lefts.map (fun y => some (y, none)) ∧
        result = some (lefts ++ left :: after,
          some (.invalid (issues.map (·.ofElement before.length)) true))

/-- The verdicts on elements that are accepted. -/
theorem map_verdictOf?_of_succeeds {rule : Json → Run Json} {items : List Json}
    (h : ∀ y ∈ items, (rule y).Succeeds) :
    items.map (fun y => verdictOf? (rule y)) =
      (items.map fun y => (rule y).value).map fun y => some (y, none) := by
  rw [List.map_map]
  refine List.map_congr_left fun y hy => ?_
  rw [(h y hy).eq_ok, verdictOf?_ok]
  rfl

theorem length_upToFailure (rule : Json → Run Json) (values : List Json) :
    (Run.upToFailure rule values).value.length = values.length := by
  cases values with
  | nil => rfl
  | cons x rest =>
    rw [Run.upToFailure, Run.toOutcome_eachItem]
    exact Outcome.length_eachItem true _ (x :: rest) 0

theorem succeeds_upToFailure_iff (rule : Json → Run Json) (values : List Json) :
    (Run.upToFailure rule values).Succeeds ↔ values ≠ [] ∧ ∀ x ∈ values, (rule x).Succeeds := by
  by_cases h : values = []
  · subst h
    exact iff_of_false (fun h => Bool.false_ne_true h.1) fun h => h.1 rfl
  · rw [Run.upToFailure_of_ne_nil rule h, Run.succeeds_eachItem_iff, and_iff_right h]

theorem listVerdict_upToFailure (rule : Json → Run Json) (values : List Json) :
    ListVerdict (fun x => verdictOf? (rule x)) values (verdictOf? (Run.upToFailure rule values)) where
  eq_none_iff := by
    simp only [verdictOf?_eq_none, exists_accepted_iff]
    cases values with
    | nil => simp [Run.upToFailure, Run.broken]
    | cons x rest => exact Run.breaksOff_eachItem_iff 0
  length_eq := by
    intro verdict h
    obtain ⟨-, rfl⟩ := verdictOf?_eq_some.mp h
    exact length_upToFailure rule values
  accepted_iff := by simp only [exists_accepted_iff, succeeds_upToFailure_iff]
  accepted := by
    intro left h
    have hsucceeds := exists_accepted_iff.mp ⟨left, h⟩
    obtain ⟨hne, hall⟩ := (succeeds_upToFailure_iff rule values).mp hsucceeds
    rw [Run.upToFailure_of_ne_nil rule hne, Run.eachItem_of_succeeds true 0 hall, verdictOf?_ok] at h
    cases h
    exact map_verdictOf?_of_succeeds hall
  empty := by rintro rfl; rfl
  failing := by
    rintro before x after left r rfl hbefore hx
    simp only [exists_accepted_iff] at hbefore
    obtain ⟨hend, hverdict⟩ := verdictOf?_eq_some.mp hx
    obtain rfl : (rule x).value = left := congrArg Prod.fst hverdict
    obtain ⟨hfails, rfl⟩ := verdictOf_eq_some (congrArg Prod.snd hverdict)
    refine ⟨_, _, rfl, map_verdictOf?_of_succeeds hbefore, ?_⟩
    have hne : before ++ x :: after ≠ [] := by simp
    rw [Run.upToFailure_of_ne_nil rule hne, Run.eachItem_of_fails 0 hbefore hfails, Nat.zero_add]
    refine verdictOf?_eq_some.mpr ⟨hend, (verdictOf_of_fails ?_).trans ?_⟩
    · exact (Outcome.passes_under _ (rule x).toOutcome).symm ▸ hfails
    · rw [← Outcome.issues_under]
      rfl

/-- The verdict of a handle on a list, with every error reported, is told by its verdicts on the
elements. -/
theorem listVerdict_validateList [Pattern.Engine] {h : Handle} {current : Options} {v : Validator}
    (hmade : h.Made) (hcompiled : Validator.compile h.schema (h.effective current) = .ok v)
    (hall : (h.effective current).allErrors = true) (values : List Json) :
    ListVerdict (fun x => (h.validate current x).2) values (h.validateList current values).2 := by
  obtain ⟨hschema, hoptions⟩ := Validator.compile_eq_ok hcompiled
  have hsingle := (hmade.coherent.withSingle_snd current).trans hcompiled
  have hchecked := check_listSchema (Validator.check_of_compile hcompiled)
  have hlist := (hmade.coherent.withList_snd current).trans (Validator.compile_of_check hchecked)
  have heach : (fun x => (h.validate current x).2) =
      fun x => verdictOf? (h.schema.run (h.effective current) false x) := by
    funext x
    rw [validate_snd hsingle, Validator.validate?, verdict_ofRun? (hoptions ▸ hall), hschema,
      hoptions]
  rw [heach, validateList_snd hlist, Validator.validateList?, verdict_ofRun? hall, run_listSchema]
  exact listVerdict_upToFailure _ values

/-- Texts. -/
def texts : Handle := { schema := Schema.ofKind .string, context := 0 }

/-- The list stops at the null and leaves what comes behind it. -/
theorem listVerdict_texts :
    texts.Made ∧
      Validator.compile texts.schema (texts.effective {}) = .ok ⟨Schema.ofKind .string, {}, rfl⟩ ∧
      (texts.validateList {} [.string "a", .null, .bool true]).2 =
        some ([.string "a", .null, .bool true],
          some (.invalid [⟨"/1", .type, "must be string"⟩] true)) := by
  have hmade : texts.Made := .new _ _
  have hcompiled : Validator.compile texts.schema (texts.effective {}) =
      .ok ⟨Schema.ofKind .string, {}, rfl⟩ := rfl
  have hverdict := listVerdict_validateList hmade hcompiled rfl [.string "a", .null, .bool true]
  obtain ⟨issues, lefts, hissues, hlefts, hresult⟩ := hverdict.failing [.string "a"] .null [.bool true]
    _ _ rfl (List.forall_mem_singleton.mpr ⟨_, rfl⟩) rfl
  cases hissues
  obtain ⟨left, rfl, hleft⟩ := List.map_eq_singleton_iff.mp hlefts.symm
  cases hleft
  exact ⟨hmade, hcompiled, hresult⟩

/-- Times. -/
def times : Handle := { schema := { text := { format := some "time" } }, context := 0 }

/-- A list with an element at which the run breaks off has no verdict, which would keep its length. -/
theorem list_not_kept :
    ¬ ∀ (h : Handle) (current : Options) (v : Validator) (values : List Json), h.Made →
      Validator.compile h.schema (h.effective current) = .ok v →
        (h.effective current).allErrors = true →
          ∃ verdict, (h.validateList current values).2 = some verdict ∧
            verdict.1.length = values.length := by
  intro hall
  obtain ⟨verdict, hverdict, -⟩ :=
    hall times {} _ [.string "10:30:00", .string Format.arabicTime] (.new _ _) rfl rfl
  cases hverdict

end Handle

end DataSchema
