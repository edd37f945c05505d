import DataSchema.Proofs.Evaluation
import DataSchema.Proofs.Nesting

/-!
What the evaluator asks of a policy.

It asks whether to convert, whether the first finding ends the run, and how to prepare an object for a schema;
two policies that answer alike for every schema in the tree make the same runs (`Schema.run_congr`).
-/

namespace DataSchema

/-- Rules that are the same for each of several things are the same in turn. -/
theorem Run.inTurn_congr {α σ : Type} {stop : Bool} {rule rule' : σ → α → Run α} :
    ∀ {ss : List σ}, (∀ s ∈ ss, rule s = rule' s) → inTurn stop rule ss = inTurn stop rule' ss
  | [], _ => rfl
  | s :: rest, h => by
    rw [List.forall_mem_cons] at h
    funext value
    rw [inTurn, inTurn, h.1, inTurn_congr h.2]

variable [Pattern.Engine]

/-- For the schema and those below it, the second policy answers the evaluator as the first one does. -/
structure Options.Alike (o o' : Options) (s : Schema) : Prop where
  coerceTypes : o'.coerceTypes = o.coerceTypes
  stops : o'.stops = o.stops
  prepare : ∀ t, Schema.Within t s → t.prepare o' = t.prepare o

theorem Options.Alike.child {o o' : Options} {s t : Schema} (h : o.Alike o' s) (ht : Schema.Child t s) :
    o.Alike o' t :=
  ⟨h.coerceTypes, h.stops, fun u hu => h.prepare u (.step ht hu)⟩

namespace Schema

variable {s : Schema} {o o' : Options} {listed : Bool}

section Stages

variable (hstops : o'.stops = o.stops)
  (h : ∀ t, Child t s → ∀ listed, t.run o' listed = t.run o listed)

include hstops h

theorem runDeclared_congr : s.runDeclared o' = s.runDeclared o := by
  funext members
  rw [runDeclared, runDeclared, hstops]
  exact congrFun (Run.inTurn_congr fun e he => by rw [h e.2 (.property he)]) members

theorem runPatterned_congr : s.runPatterned o' = s.runPatterned o := by
  funext members
  rw [runPatterned, runPatterned, hstops]
  refine congrArg (Run.eachMember o.stops · members) ?_
  funext key value
  exact ite_congr rfl (fun _ => rfl) fun _ =>
    congrFun (Run.inTurn_congr fun e he => by rw [h e.2 (.pattern he)]) value

theorem runExtra_congr : s.runExtra o' = s.runExtra o := by
  funext members
  rw [runExtra, runExtra, hstops]
  split
  · next t ht => rw [h t (.additional ht)]
  · rfl

theorem runMembers_congr : s.runMembers o' = s.runMembers o := by
  funext members
  rw [runMembers, runMembers, hstops, runDeclared_congr hstops h,
    runPatterned_congr hstops h, runExtra_congr hstops h]

theorem runElements_congr : s.runElements o' listed = s.runElements o listed := by
  funext items
  rw [runElements, runElements, hstops]
  split
  · next t ht => rw [h t (.items ht)]
  · rfl

theorem runContent_congr (hprepare : s.prepare o' = s.prepare o) :
    s.runContent o' listed = s.runContent o listed := by
  funext value
  cases value with
  | array items => rw [runContent, runContent, hstops, runElements_congr hstops h]
  | object members => rw [runContent, runContent, hprepare, runMembers_congr hstops h]
  | _ => rfl

omit hstops in
theorem runBranches_congr {branches : Option (List Schema)}
    (hbranches : ∀ ts, branches = some ts → ∀ t ∈ ts, Child t s)
    (combine : Json → List (Run Json) → Run Json) :
    runBranches combine o' branches = runBranches combine o branches := by
  funext value
  rw [runBranches.eq_def, runBranches.eq_def]
  split
  · next t rest =>
    refine congrArg (combine value) (List.map_congr_left fun u hu => ?_)
    rw [h u (hbranches _ rfl u hu)]
  · rfl

theorem runCombinations_congr :
    s.runCombinations o' listed = s.runCombinations o listed := by
  have hall : ∀ t ∈ s.allOf.getD [], t.run o' listed = t.run o listed := fun t ht =>
    h t (.ofAllOf ht) listed
  have hnot : s.runNegated o' = s.runNegated o := by
    funext value
    rw [runNegated, runNegated]
    split
    · next t ht => rw [h t (.not ht)]
    · rfl
  funext value
  rw [runCombinations, runCombinations, hstops, Run.inTurn_congr hall,
    runBranches_congr h (fun _ hs _ => .anyOf hs), runBranches_congr h (fun _ hs _ => .oneOf hs), hnot]

end Stages

theorem run_congr (s : Schema) : o.Alike o' s → ∀ listed,
    s.run o' listed = s.run o listed := by
  induction s using Schema.induction with
  | step s ih =>
    intro halike listed
    have hchildren : ∀ t, Child t s → ∀ listed, t.run o' listed = t.run o listed := fun t ht =>
      ih t ht (halike.child ht)
    have hadmit : ∀ value, s.admit? o' value = s.admit? o value := by
      intro value
      rw [admit?, admit?, halike.coerceTypes]
    funext value
    rw [run_eq, run_eq, hadmit, halike.stops,
      runContent_congr halike.stops hchildren (halike.prepare s (.refl s)),
      runCombinations_congr halike.stops hchildren]

theorem evaluate_congr (halike : o.Alike o' s) (listed : Bool) :
    s.evaluate o' listed = s.evaluate o listed :=
  funext fun value => congrArg (·.toOutcome) (congrFun (s.run_congr halike listed) value)

end Schema

end DataSchema
