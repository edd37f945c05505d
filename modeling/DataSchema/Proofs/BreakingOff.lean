import DataSchema.Proofs.Evaluation
import DataSchema.Proofs.Facets
import DataSchema.Proofs.Nesting
import DataSchema.Proofs.Validator

/-!
Runs that break off.

Only the check of a text against the format `time` can break off, and the text is then refused. So a run
that breaks off has come to such a text under a schema in the tree, and it has a finding to show for it,
unless the finding was made in a branch and dropped with it (`Schema.breaksOnly_run`). Where there is nothing
to choose, a run without findings does not break off.
-/

namespace DataSchema

namespace Run

variable {α β σ : Type} {stop : Bool} {cause choice : Prop}

/-- A run breaks off for a cause only, and passes then by a choice only. -/
structure BreaksOnly (x : Run α) (cause choice : Prop) : Prop where
  cause : x.breaksOff = true → cause
  choice : x.breaksOff = true → x.passes = true → choice

theorem breaksOnly_of_eq_false {x : Run α} (h : x.breaksOff = false) : x.BreaksOnly cause choice :=
  ⟨fun hb => absurd (h.symm.trans hb) (by decide), fun hb => absurd (h.symm.trans hb) (by decide)⟩

namespace BreaksOnly

variable {x : Run α}

theorem imp {cause' choice' : Prop} (h : x.BreaksOnly cause choice) (hcause : cause → cause')
    (hchoice : choice → choice') : x.BreaksOnly cause' choice' :=
  ⟨fun hb => hcause (h.cause hb), fun hb hp => hchoice (h.choice hb hp)⟩

theorem map (f : α → β) (h : x.BreaksOnly cause choice) : (x.map f).BreaksOnly cause choice :=
  ⟨h.cause, h.choice⟩

theorem under (key : String) (h : x.BreaksOnly cause choice) :
    (x.under key).BreaksOnly cause choice :=
  ⟨h.cause, fun hb hp => h.choice hb ((Outcome.passes_under key x.toOutcome).symm.trans hp)⟩

theorem andThen {next : α → Run α} (h : x.BreaksOnly cause choice)
    (hn : (next x.value).BreaksOnly cause choice) :
    (x.andThen stop next).BreaksOnly cause choice := by
  have hbreaks : (x.andThen stop next).breaksOff = true →
      x.breaksOff = true ∨ (next x.value).breaksOff = true := by
    rw [breaksOff_andThen, Bool.or_eq_true, Bool.and_eq_true]
    exact Or.imp_right And.right
  refine ⟨fun hb => (hbreaks hb).elim h.cause hn.cause, fun hb hp => ?_⟩
  rw [toOutcome_andThen, Outcome.passes_andThen] at hp
  exact (hbreaks hb).elim (fun hb => h.choice hb hp.1) fun hb => hn.choice hb hp.2

end BreaksOnly

theorem breaksOnly_if {c : Prop} [Decidable c] {x : Run α} {value : α}
    (h : c → x.BreaksOnly cause choice) : (if c then x else ok value).BreaksOnly cause choice := by
  split
  · exact h ‹c›
  · exact breaksOnly_of_eq_false rfl

theorem breaksOnly_inTurn {rule : σ → α → Run α} : ∀ {ss : List σ},
    (∀ s ∈ ss, ∀ value, (rule s value).BreaksOnly cause choice) →
      ∀ value, (inTurn stop rule ss value).BreaksOnly cause choice
  | [], _, _ => breaksOnly_of_eq_false rfl
  | s :: _, h, value => (h s List.mem_cons_self value).andThen
      (breaksOnly_inTurn (fun t ht => h t (List.mem_cons_of_mem s ht)) _)

theorem breaksOnly_cons {first : Run α} {rest : List α} {others : List α → Run (List α)}
    (h : first.BreaksOnly cause choice) (hrest : (others rest).BreaksOnly cause choice) :
    (cons stop first rest others).BreaksOnly cause choice := by
  have hpair : ((first.map fun x => (x, rest)).andThen stop fun parts =>
      (others parts.2).map fun rest => (parts.1, rest)).BreaksOnly cause choice :=
    (h.map fun x => (x, rest)).andThen (hrest.map fun rest => (first.value, rest))
  exact hpair.map fun parts => parts.1 :: parts.2

theorem breaksOnly_eachItem {rule : α → Run α} (h : ∀ x, (rule x).BreaksOnly cause choice) :
    ∀ (items : List α) (index : Nat), (eachItem stop rule index items).BreaksOnly cause choice
  | [], _ => breaksOnly_of_eq_false rfl
  | x :: rest, index => by
    rw [eachItem_cons]
    exact breaksOnly_cons ((h x).under _) (breaksOnly_eachItem h rest (index + 1))

theorem breaksOnly_eachMember {rule : String → α → Run α}
    (h : ∀ key x, (rule key x).BreaksOnly cause choice) :
    ∀ members, (eachMember stop rule members).BreaksOnly cause choice
  | [] => breaksOnly_of_eq_false rfl
  | (key, x) :: rest => by
    rw [eachMember_cons]
    exact breaksOnly_cons (((h key x).under key).map _) (breaksOnly_eachMember h rest)

theorem breaksOnly_atMember {key : String} {rule : α → Run α}
    (h : ∀ x, (rule x).BreaksOnly cause choice) :
    ∀ members, (atMember key rule members).BreaksOnly cause choice
  | [] => breaksOnly_of_eq_false rfl
  | (k, x) :: rest => by
    rw [atMember]
    split
    · exact ((h x).under key).map _
    · exact (breaksOnly_atMember h rest).map _

end Run

namespace Schema

open Run

/-- Somewhere in the tree of the schema there is a text facet whose check breaks off at some text. -/
def CanBreakOff (s : Schema) : Prop :=
  ∃ t, Within t s ∧ ∃ text, t.text.breaksOff text = true

theorem CanBreakOff.of_child {s t : Schema} (ht : Child t s) (h : t.CanBreakOff) : s.CanBreakOff :=
  h.imp fun _ => And.imp_left (.step ht)

/-- Only the format `time` can be the cause. -/
theorem CanBreakOff.exists_time {s : Schema} (h : s.CanBreakOff) :
    ∃ t, Within t s ∧ t.text.format = some "time" := by
  obtain ⟨t, ht, text, hbreaks⟩ := h
  refine ⟨t, ht, ?_⟩
  rw [TextFacets.breaksOff, Option.any_eq_true] at hbreaks
  obtain ⟨format, hformat, hbreaks⟩ := hbreaks
  obtain ⟨name, hname, hknown⟩ := Option.bind_eq_some_iff.mp hformat
  cases format with
  | time =>
    have hfound : Format.time.name = name := by simpa using List.find?_some hknown
    rw [hname, ← hfound]
    rfl
  | _ => cases hbreaks

variable [Pattern.Engine]

section Stages

variable {o : Options} {s : Schema}

/-- The children of a schema break off for a cause in its tree, and pass then by a choice in its tree. -/
def ChildrenBreak (o : Options) (s : Schema) : Prop :=
  ∀ t, Child t s → ∀ listed value,
    (t.run o listed value).BreaksOnly s.CanBreakOff (¬ s.ChoiceFree)

theorem breaksOnly_runDeclared (h : ChildrenBreak o s) (members : List (String × Json)) :
    (s.runDeclared o members).BreaksOnly s.CanBreakOff (¬ s.ChoiceFree) :=
  breaksOnly_inTurn
    (fun _ he => breaksOnly_atMember fun x => h _ (.property he) false x) members

theorem breaksOnly_runPatterned (h : ChildrenBreak o s) (members : List (String × Json)) :
    (s.runPatterned o members).BreaksOnly s.CanBreakOff (¬ s.ChoiceFree) := by
  refine breaksOnly_eachMember (fun key x => ?_) members
  rw [← ite_not]
  refine breaksOnly_if fun _ => breaksOnly_inTurn (fun e he value => ?_) x
  exact breaksOnly_if fun _ => h e.2 (.pattern he) false value

theorem breaksOnly_runExtra (h : ChildrenBreak o s) (members : List (String × Json)) :
    (s.runExtra o members).BreaksOnly s.CanBreakOff (¬ s.ChoiceFree) := by
  rw [runExtra]
  split
  · next t ht =>
    refine breaksOnly_eachMember (fun key x => ?_) members
    exact breaksOnly_if fun _ => h t (.additional ht) false x
  · exact breaksOnly_of_eq_false rfl

theorem breaksOnly_runMembers (h : ChildrenBreak o s) (members : List (String × Json)) :
    (s.runMembers o members).BreaksOnly s.CanBreakOff (¬ s.ChoiceFree) := by
  refine (breaksOnly_of_eq_false rfl).andThen ?_
  refine (breaksOnly_runDeclared h _).andThen ?_
  exact (breaksOnly_runPatterned h _).andThen (breaksOnly_runExtra h _)

theorem breaksOnly_runElements (h : ChildrenBreak o s) (listed : Bool) (items : List Json) :
    (s.runElements o listed items).BreaksOnly s.CanBreakOff (¬ s.ChoiceFree) := by
  rw [runElements]
  split
  · next t ht => exact breaksOnly_eachItem (h t (.items ht) false) items 0
  · exact breaksOnly_of_eq_false rfl

theorem breaksOnly_runContent (h : ChildrenBreak o s) (listed : Bool) (value : Json) :
    (s.runContent o listed value).BreaksOnly s.CanBreakOff (¬ s.ChoiceFree) := by
  cases value with
  | string text =>
    -- the one place where a run breaks off, with a finding to show for it
    refine ⟨fun hb => ⟨s, .refl s, text, hb⟩, fun hb hp => ?_⟩
    exact absurd ((Outcome.passes_broken _ _).mp hp) (TextFacets.violations_of_breaksOff hb)
  | array items =>
    exact ((breaksOnly_of_eq_false rfl).andThen (breaksOnly_runElements h listed _)).map _
  | object members => exact (breaksOnly_runMembers h _).map _
  | _ => exact breaksOnly_of_eq_false rfl

omit [Pattern.Engine] in
theorem anyBreaksOff_imp : ∀ {runs : List (Run Json)}, anyBreaksOff runs = true →
    ∃ x ∈ runs, x.breaksOff = true
  | [], h => absurd h (by decide)
  | x :: rest, h => by
    rw [anyBreaksOff, Bool.or_eq_true, Bool.and_eq_true] at h
    rcases h with hx | ⟨-, hrest⟩
    · exact ⟨x, List.mem_cons_self, hx⟩
    · obtain ⟨y, hy, hb⟩ := anyBreaksOff_imp hrest
      exact ⟨y, List.mem_cons_of_mem x hy, hb⟩

theorem breaksOnly_runBranches {combine : Json → List (Run Json) → Run Json}
    {branches : Option (List Schema)} (h : ChildrenBreak o s)
    (hbranches : ∀ ts, branches = some ts → ∀ t ∈ ts, Child t s)
    (hchoice : ∀ ts, branches = some ts → ¬ s.ChoiceFree)
    (hcombine : ∀ value runs, (combine value runs).breaksOff = true → ∃ x ∈ runs, x.breaksOff = true)
    (value : Json) :
    (runBranches combine o branches value).BreaksOnly s.CanBreakOff (¬ s.ChoiceFree) := by
  rw [runBranches.eq_def]
  split
  · next t rest =>
    refine ⟨fun hb => ?_, fun _ _ => hchoice _ rfl⟩
    obtain ⟨x, hx, hxb⟩ := hcombine _ _ hb
    obtain ⟨u, hu, rfl⟩ := List.mem_map.mp hx
    exact (h u (hbranches _ rfl u hu) false value).cause hxb
  · exact breaksOnly_of_eq_false rfl

theorem breaksOnly_runNegated (h : ChildrenBreak o s) (value : Json) :
    (s.runNegated o value).BreaksOnly s.CanBreakOff (¬ s.ChoiceFree) := by
  rw [runNegated]
  split
  · next t ht =>
    refine ⟨(h t (.not ht) false value).cause, fun _ _ hfree => ?_⟩
    exact absurd ((hfree s (.refl s)).2.2.symm.trans ht) (by simp)
  · exact breaksOnly_of_eq_false rfl

theorem breaksOnly_runCombinations (h : ChildrenBreak o s) (listed : Bool) (value : Json) :
    (s.runCombinations o listed value).BreaksOnly s.CanBreakOff (¬ s.ChoiceFree) := by
  refine (breaksOnly_inTurn (fun t ht => h t (.ofAllOf ht) listed) value).andThen ?_
  refine (breaksOnly_runBranches h (fun _ hs _ => .anyOf hs) (fun ts hs hfree => ?_)
    (fun _ _ => anyBreaksOff_imp) _).andThen ?_
  · exact absurd ((hfree s (.refl s)).1.symm.trans hs) (by simp)
  refine (breaksOnly_runBranches h (fun _ hs _ => .oneOf hs) (fun ts hs hfree => ?_)
    (fun _ _ => List.any_eq_true.mp) _).andThen (breaksOnly_runNegated h _)
  exact absurd ((hfree s (.refl s)).2.1.symm.trans hs) (by simp)

end Stages

/-- A run that breaks off has come to a text at which the check of a format breaks off; and if it finds
nothing, the schema lets it choose somewhere. -/
theorem breaksOnly_run (o : Options) (s : Schema) : ∀ (listed : Bool) (value : Json),
    (s.run o listed value).BreaksOnly s.CanBreakOff (¬ s.ChoiceFree) := by
  induction s using Schema.induction with
  | step s ih =>
    intro listed value
    have hchildren : ChildrenBreak o s := fun t ht listed value =>
      (ih t ht listed value).imp (.of_child ht) (mt fun hfree => hfree.child ht)
    by_cases hnull : value = .null ∧ s.nullable = true
    · rw [run_null hnull]
      exact breaksOnly_of_eq_false rfl
    · cases hkind : s.admit? o value with
      | none =>
        rw [run_refused hnull hkind]
        exact breaksOnly_of_eq_false rfl
      | some admitted =>
        rw [run_admitted hnull hkind]
        have hown : (Run.broken admitted (s.valueViolations admitted)).BreaksOnly s.CanBreakOff
            (¬ s.ChoiceFree) := breaksOnly_of_eq_false rfl
        exact (hown.andThen (breaksOnly_runContent hchildren listed _)).andThen
          (breaksOnly_runCombinations hchildren listed _)

theorem Timeless.breaksOff_run {s : Schema} (h : s.Timeless) (o : Options) (listed : Bool) (value : Json) :
    (s.run o listed value).breaksOff = false := by
  refine Bool.eq_false_iff.mpr fun hb => ?_
  obtain ⟨t, ht, htime⟩ := ((s.breaksOnly_run o listed value).cause hb).exists_time
  exact h t ht htime

end Schema

namespace Validator

variable [Pattern.Engine] {v : Validator} {value : Json}

/-- Without the format `time` every run comes to its end. -/
theorem breaksOff_of_timeless (h : v.schema.Timeless) (value : Json) : v.breaksOff value = false :=
  h.breaksOff_run v.options false value

theorem exists_report (h : v.schema.Timeless) (value : Json) : ∃ r, v.validate? value = some r :=
  ⟨_, validate?_eq_some.mpr ⟨breaksOff_of_timeless h value, rfl⟩⟩

theorem exists_listReport (h : v.schema.Timeless) (values : List Json) :
    ∃ r, v.validateList? values = some r :=
  ⟨_, validateList?_eq_some.mpr ⟨h.breaksOff_run v.options true (.array values), rfl⟩⟩

/-- Without a choice, a report without issues is that of a run that comes to its end. -/
theorem validate?_of_choiceFree (h : v.schema.ChoiceFree) (hpasses : (v.validate value).issues = []) :
    v.validate? value = some (v.validate value) := by
  have hp := (Report.issues_ofOutcome_eq_nil _ _).mp hpasses
  refine validate?_eq_some.mpr ⟨Bool.eq_false_iff.mpr fun hb => ?_, rfl⟩
  exact (v.schema.breaksOnly_run v.options false value).choice hb hp h

end Validator

end DataSchema
