import DataSchema.Proofs.Outcome
import DataSchema.Validation.Evaluate

/-!
The evaluator by its stages.

`Schema.run` walks a schema together with one function for each container that nests schemas. Here these
functions are told by the rules for lists of runs, so that one equation, `run_eq`, gives the run of a
schema by the runs of its children: the null that is let through, the kind, the value itself, its content,
and the combinations. For the outcome alone there are the same stages without the mark of a run that
breaks off, and `evaluate_eq`.
-/

namespace DataSchema

variable [Pattern.Engine]

namespace Schema

/-! ### The functions for containers -/

theorem runProperties_eq (o : Options) : ∀ (ps : List (String × Schema)) members,
    runProperties o ps members =
      Run.inTurn o.stops (fun e => Run.atMember e.1 (e.2.run o false)) ps members
  | [], _ => by rw [runProperties, Run.inTurn]
  | (name, s) :: rest, members => by
    rw [runProperties, Run.inTurn, funext (runProperties_eq o rest)]

theorem runPatterns_eq (o : Options) (key : String) : ∀ (ps : List (String × Schema)) value,
    runPatterns o ps key value = Run.inTurn o.stops
      (fun e value => if Pattern.accepts e.1 key then e.2.run o false value else .ok value) ps value
  | [], _ => by rw [runPatterns, Run.inTurn]
  | (pattern, s) :: rest, value => by
    rw [runPatterns, Run.inTurn, funext (runPatterns_eq o key rest)]

theorem runInTurn_eq (o : Options) (listed : Bool) : ∀ (ss : List Schema) value,
    runInTurn o listed ss value = Run.inTurn o.stops (run o listed) ss value
  | [], _ => by rw [runInTurn, Run.inTurn]
  | s :: rest, value => by
    rw [runInTurn, Run.inTurn, funext (runInTurn_eq o listed rest)]

theorem runEach_eq (o : Options) (value : Json) : ∀ ss : List Schema,
    runEach o ss value = ss.map fun s => s.run o false value
  | [] => by rw [runEach, List.map_nil]
  | s :: rest => by rw [runEach, runEach_eq o value rest, List.map_cons]

theorem runItems_eq (o : Options) (listed : Bool) (items : List Json) : ∀ it : Option Schema,
    runItems o listed it items =
      match it with
      | some t => Run.eachItem (o.stops || listed) (t.run o false) 0 items
      | none => .ok items
  | none => by rw [runItems]
  | some t => by rw [runItems]

theorem runAdditional_eq (o : Options) (isExtra : String → Bool) (members : List (String × Json)) :
    ∀ ad : Additional Schema, runAdditional o isExtra ad members =
      match ad with
      | .schema t =>
        Run.eachMember o.stops (fun key value =>
          if isExtra key then t.run o false value else .ok value) members
      | _ => .ok members
  | .schema t => by rw [runAdditional]
  | .unspecified => by simp [runAdditional]
  | .allowed _ => by simp [runAdditional]

theorem runAll_eq (o : Options) (listed : Bool) (value : Json) :
    ∀ branches : Option (List Schema), runAll o listed branches value =
      Run.inTurn o.stops (run o listed) (branches.getD []) value
  | none => by rw [runAll]; rfl
  | some ss => by rw [runAll, runInTurn_eq]; rfl

/-- The run of a combination that says nothing when it has no branches. -/
def runBranches (combine : Json → List (Run Json) → Run Json) (o : Options)
    (branches : Option (List Schema)) (value : Json) : Run Json :=
  match branches with
  | some (t :: rest) => combine value ((t :: rest).map fun t => t.run o false value)
  | _ => .ok value

theorem runAny_eq (o : Options) (value : Json) : ∀ branches : Option (List Schema),
    runAny o branches value = runBranches anyOfRun o branches value
  | none => by simp [runAny, runBranches]
  | some [] => by simp [runAny, runBranches]
  | some (s :: rest) => by rw [runAny, runEach_eq]; rfl

theorem runOne_eq (o : Options) (value : Json) : ∀ branches : Option (List Schema),
    runOne o branches value = runBranches oneOfRun o branches value
  | none => by simp [runOne, runBranches]
  | some [] => by simp [runOne, runBranches]
  | some (s :: rest) => by rw [runOne, runEach_eq]; rfl

theorem runNot_eq (o : Options) (value : Json) : ∀ negated : Option Schema,
    runNot o negated value =
      match negated with
      | some t => notRun value (t.run o false value)
      | none => .ok value
  | none => by rw [runNot]
  | some t => by rw [runNot]

/-! ### The stages of a run -/

/-- The declared members, in the order of the declarations. -/
def runDeclared (o : Options) (s : Schema) (members : List (String × Json)) :
    Run (List (String × Json)) :=
  Run.inTurn o.stops (fun e => Run.atMember e.1 (e.2.run o false)) s.properties members

/-- The members that are not declared, each under the patterns that accept its key. -/
def runPatterned (o : Options) (s : Schema) (members : List (String × Json)) :
    Run (List (String × Json)) :=
  Run.eachMember o.stops (fun key value =>
    if s.declares key then .ok value
    else Run.inTurn o.stops
      (fun e value => if Pattern.accepts e.1 key then e.2.run o false value else .ok value)
      s.patternProperties value) members

/-- The members that no property and no pattern names. -/
def runExtra (o : Options) (s : Schema) (members : List (String × Json)) :
    Run (List (String × Json)) :=
  match s.additional with
  | .schema t =>
    Run.eachMember o.stops (fun key value =>
      if s.isExtra key then t.run o false value else .ok value) members
  | _ => .ok members

/-- An object as it is before its keys are looked at, on through all its members. -/
def runMembers (o : Options) (s : Schema) (members : List (String × Json)) :
    Run (List (String × Json)) :=
  (Run.broken members (s.keyViolations members)).andThen o.stops fun members =>
  (s.runDeclared o members).andThen o.stops fun members =>
  (s.runPatterned o members).andThen o.stops (s.runExtra o)

/-- The elements of an array. -/
def runElements (o : Options) (listed : Bool) (s : Schema) (items : List Json) : Run (List Json) :=
  match s.items with
  | some t => Run.eachItem (o.stops || listed) (t.run o false) 0 items
  | none => .ok items

/-- The facets for the kind that the value has, and the parts of the value. -/
def runContent (o : Options) (listed : Bool) (s : Schema) (value : Json) : Run Json :=
  match value with
  | .string text => ⟨.broken value (s.text.violations text), s.text.breaksOff text⟩
  | .number n => .broken value (s.number.violations n.toDouble)
  | .array items =>
    ((Run.broken items (s.array.violations items)).andThen o.stops (s.runElements o listed)).map .array
  | .object members => (s.runMembers o (s.prepare o members)).map .object
  | value => .ok value

/-- The schema whose values are refused. -/
def runNegated (o : Options) (s : Schema) (value : Json) : Run Json :=
  match s.not with
  | some t => notRun value (t.run o false value)
  | none => .ok value

def runCombinations (o : Options) (listed : Bool) (s : Schema) (value : Json) : Run Json :=
  (Run.inTurn o.stops (run o listed) (s.allOf.getD []) value).andThen o.stops fun value =>
  (runBranches anyOfRun o s.anyOf value).andThen o.stops fun value =>
  (runBranches oneOfRun o s.oneOf value).andThen o.stops (s.runNegated o)

theorem run_eq (o : Options) (listed : Bool) (s : Schema) (value : Json) :
    s.run o listed value =
      if value.isNull && s.nullable then .ok value
      else match s.admit? o value with
        | none => .broken value s.kindViolations
        | some value =>
          ((Run.broken value (s.valueViolations value)).andThen o.stops
            (s.runContent o listed)).andThen o.stops (s.runCombinations o listed) := by
  cases s
  rw [run]
  simp only [runProperties_eq, runPatterns_eq, runItems_eq, runAdditional_eq, runAll_eq, runAny_eq,
    runOne_eq, runNot_eq]
  rfl

/-! ### The stages of an outcome -/

/-- The declared members, in the order of the declarations. -/
def evaluateDeclared (o : Options) (s : Schema) (members : List (String × Json)) :
    Outcome (List (String × Json)) :=
  Outcome.inTurn o.stops (fun e => Outcome.atMember e.1 (e.2.evaluate o false)) s.properties members

/-- The members that are not declared, each under the patterns that accept its key. -/
def evaluatePatterned (o : Options) (s : Schema) (members : List (String × Json)) :
    Outcome (List (String × Json)) :=
  Outcome.eachMember o.stops (fun key value =>
    if s.declares key then .ok value
    else Outcome.inTurn o.stops
      (fun e value => if Pattern.accepts e.1 key then e.2.evaluate o false value else .ok value)
      s.patternProperties value) members

/-- The members that no property and no pattern names. -/
def evaluateExtra (o : Options) (s : Schema) (members : List (String × Json)) :
    Outcome (List (String × Json)) :=
  match s.additional with
  | .schema t =>
    Outcome.eachMember o.stops (fun key value =>
      if s.isExtra key then t.evaluate o false value else .ok value) members
  | _ => .ok members

/-- An object as it is before its keys are looked at, on through all its members. -/
def evaluateMembers (o : Options) (s : Schema) (members : List (String × Json)) :
    Outcome (List (String × Json)) :=
  (Outcome.broken members (s.keyViolations members)).andThen o.stops fun members =>
  (s.evaluateDeclared o members).andThen o.stops fun members =>
  (s.evaluatePatterned o members).andThen o.stops (s.evaluateExtra o)

/-- The elements of an array. -/
def evaluateElements (o : Options) (listed : Bool) (s : Schema) (items : List Json) :
    Outcome (List Json) :=
  match s.items with
  | some t => Outcome.eachItem (o.stops || listed) (t.evaluate o false) 0 items
  | none => .ok items

/-- The facets for the kind that the value has, and the parts of the value. -/
def evaluateContent (o : Options) (listed : Bool) (s : Schema) (value : Json) : Outcome Json :=
  match value with
  | .string text => .broken value (s.text.violations text)
  | .number n => .broken value (s.number.violations n.toDouble)
  | .array items =>
    ((Outcome.broken items (s.array.violations items)).andThen o.stops
      (s.evaluateElements o listed)).map .array
  | .object members => (s.evaluateMembers o (s.prepare o members)).map .object
  | value => .ok value

/-- A combination that says nothing when it has no branches. -/
def ofBranches (combine : Json → List (Outcome Json) → Outcome Json) (o : Options)
    (branches : Option (List Schema)) (value : Json) : Outcome Json :=
  match branches with
  | some (t :: rest) => combine value ((t :: rest).map fun t => t.evaluate o false value)
  | _ => .ok value

/-- The schema whose values are refused. -/
def evaluateNegated (o : Options) (s : Schema) (value : Json) : Outcome Json :=
  match s.not with
  | some t => notOutcome value (t.evaluate o false value)
  | none => .ok value

def evaluateCombinations (o : Options) (listed : Bool) (s : Schema) (value : Json) : Outcome Json :=
  (Outcome.inTurn o.stops (evaluate o listed) (s.allOf.getD []) value).andThen o.stops fun value =>
  (ofBranches anyOfOutcome o s.anyOf value).andThen o.stops fun value =>
  (ofBranches oneOfOutcome o s.oneOf value).andThen o.stops (s.evaluateNegated o)

section Outcomes

variable (o : Options) (s : Schema)

theorem toOutcome_runDeclared (members : List (String × Json)) :
    (s.runDeclared o members).toOutcome = s.evaluateDeclared o members := by
  simp only [runDeclared, Run.toOutcome_inTurn, Run.toOutcome_atMember]
  rfl

theorem toOutcome_runPatterned (members : List (String × Json)) :
    (s.runPatterned o members).toOutcome = s.evaluatePatterned o members := by
  simp only [runPatterned, Run.toOutcome_eachMember, apply_ite Run.toOutcome, Run.toOutcome_inTurn]
  rfl

theorem toOutcome_runExtra (members : List (String × Json)) :
    (s.runExtra o members).toOutcome = s.evaluateExtra o members := by
  rw [runExtra, evaluateExtra]
  split
  · simp only [Run.toOutcome_eachMember, apply_ite Run.toOutcome]
    rfl
  · rfl

theorem toOutcome_runMembers (members : List (String × Json)) :
    (s.runMembers o members).toOutcome = s.evaluateMembers o members := by
  simp only [runMembers, Run.toOutcome_andThen, toOutcome_runDeclared, toOutcome_runPatterned,
    toOutcome_runExtra]
  rfl

theorem toOutcome_runElements (listed : Bool) (items : List Json) :
    (s.runElements o listed items).toOutcome = s.evaluateElements o listed items := by
  rw [runElements, evaluateElements]
  split
  · exact Run.toOutcome_eachItem _ _ _ _
  · rfl

theorem toOutcome_runContent (listed : Bool) (value : Json) :
    (s.runContent o listed value).toOutcome = s.evaluateContent o listed value := by
  cases value with
  | array items =>
    refine congrArg (Outcome.map Json.array) ?_
    simp only [Run.toOutcome_andThen, toOutcome_runElements]
    rfl
  | object members => exact congrArg (Outcome.map Json.object) (s.toOutcome_runMembers o _)
  | _ => rfl

theorem toOutcome_runBranches (combine : Json → List (Run Json) → Run Json)
    (combine' : Json → List (Outcome Json) → Outcome Json)
    (h : ∀ value runs, (combine value runs).toOutcome = combine' value (runs.map (·.toOutcome)))
    (branches : Option (List Schema)) (value : Json) :
    (runBranches combine o branches value).toOutcome = ofBranches combine' o branches value := by
  rw [runBranches.eq_def, ofBranches.eq_def]
  split
  · rw [h, List.map_map]
    rfl
  · rfl

theorem toOutcome_runNegated (value : Json) :
    (s.runNegated o value).toOutcome = s.evaluateNegated o value := by
  rw [runNegated, evaluateNegated]
  split <;> rfl

theorem toOutcome_runCombinations (listed : Bool) (value : Json) :
    (s.runCombinations o listed value).toOutcome = s.evaluateCombinations o listed value := by
  simp only [runCombinations, Run.toOutcome_andThen, Run.toOutcome_inTurn, toOutcome_runNegated,
    toOutcome_runBranches o anyOfRun anyOfOutcome fun _ _ => rfl,
    toOutcome_runBranches o oneOfRun oneOfOutcome fun _ _ => rfl]
  rfl

end Outcomes

theorem evaluate_eq (o : Options) (listed : Bool) (s : Schema) (value : Json) :
    s.evaluate o listed value =
      if value.isNull && s.nullable then .ok value
      else match s.admit? o value with
        | none => .broken value s.kindViolations
        | some value =>
          ((Outcome.broken value (s.valueViolations value)).andThen o.stops
            (s.evaluateContent o listed)).andThen o.stops (s.evaluateCombinations o listed) := by
  rw [evaluate, run_eq]
  split
  · rfl
  · split
    · rfl
    · simp only [Run.toOutcome_andThen, toOutcome_runContent, toOutcome_runCombinations]
      rfl

section Cases

variable {o : Options} {listed : Bool} {s : Schema} {value : Json}

omit [Pattern.Engine] in
theorem isNull_and_iff :
    (value.isNull && s.nullable) = true ↔ value = .null ∧ s.nullable = true := by
  cases value <;> simp [Json.isNull]

theorem run_null (h : value = .null ∧ s.nullable = true) : s.run o listed value = .ok value := by
  rw [run_eq, if_pos (isNull_and_iff.mpr h)]

theorem run_refused (h : ¬ (value = .null ∧ s.nullable = true)) (hkind : s.admit? o value = none) :
    s.run o listed value = .broken value s.kindViolations := by
  rw [run_eq, if_neg (mt isNull_and_iff.mp h), hkind]

theorem run_admitted {admitted : Json} (h : ¬ (value = .null ∧ s.nullable = true))
    (hkind : s.admit? o value = some admitted) :
    s.run o listed value =
      ((Run.broken admitted (s.valueViolations admitted)).andThen o.stops
        (s.runContent o listed)).andThen o.stops (s.runCombinations o listed) := by
  rw [run_eq, if_neg (mt isNull_and_iff.mp h), hkind]

/-- The null that the schema lets through. -/
theorem evaluate_null (h : value = .null ∧ s.nullable = true) :
    s.evaluate o listed value = .ok value := by
  rw [evaluate_eq, if_pos (isNull_and_iff.mpr h)]

/-- A value that is not of the kind and does not become one. -/
theorem evaluate_refused (h : ¬ (value = .null ∧ s.nullable = true))
    (hkind : s.admit? o value = none) :
    s.evaluate o listed value = .broken value s.kindViolations := by
  rw [evaluate_eq, if_neg (mt isNull_and_iff.mp h), hkind]

/-- A value that is of the kind or becomes one goes through all the stages. -/
theorem evaluate_admitted {admitted : Json} (h : ¬ (value = .null ∧ s.nullable = true))
    (hkind : s.admit? o value = some admitted) :
    s.evaluate o listed value =
      ((Outcome.broken admitted (s.valueViolations admitted)).andThen o.stops
        (s.evaluateContent o listed)).andThen o.stops (s.evaluateCombinations o listed) := by
  rw [evaluate_eq, if_neg (mt isNull_and_iff.mp h), hkind]

end Cases

end Schema

end DataSchema
