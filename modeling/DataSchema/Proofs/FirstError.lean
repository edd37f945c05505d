import DataSchema.Pattern.Reader
import DataSchema.Proofs.BreakingOff
import Mathlib.Data.List.Forall2

/-!
Reporting the first error only.

A run that ends with its first finding and a run that goes on to the end are compared step by step. They
*agree* when they start with the same finding, or find nothing and leave the same value, and the shorter
run breaks off only if the longer one does (`Run.Agrees`). Every way in which runs are put together keeps
the agreement, so by induction on the schema the two runs agree on every value (`agrees_run`). After a
first finding the two runs are free to leave different values: the value counts no more then, since a
branch that fails is dropped. The longer run can break off behind the first finding, where the shorter one
has ended.
-/

namespace DataSchema

/-- The policy with every error reported, or only the first one. -/
def Options.reporting (o : Options) (everyError : Bool) : Options :=
  { o with allErrors := everyError }

namespace Outcome

variable {α : Type}

theorem passes_eq_isNone (x : Outcome α) : x.passes = x.findings.head?.isNone := by
  obtain ⟨value, findings⟩ := x
  cases findings with
  | nil => rfl
  | cons f rest => rfl

/-- After a finding, what comes next does not change which finding is the first. -/
theorem head?_andThen {x : Outcome α} (h : ¬ x.passes = true) (stop : Bool)
    (next : α → Outcome α) : (x.andThen stop next).findings.head? = x.findings.head? := by
  obtain ⟨value, findings⟩ := x
  cases findings with
  | nil => exact absurd rfl h
  | cons f rest => cases stop <;> rfl

end Outcome

namespace Run

variable {α β σ : Type}

/-- The first run is what the second one is up to its first finding. -/
structure Agrees (first all : Run α) : Prop where
  head_eq : first.findings.head? = all.findings.head?
  value_eq : first.passes = true → first.value = all.value
  breaksOff : first.breaksOff = true → all.breaksOff = true

namespace Agrees

variable {first all : Run α}

theorem refl (x : Run α) : x.Agrees x := ⟨rfl, fun _ => rfl, id⟩

theorem passes_eq (h : first.Agrees all) : first.passes = all.passes := by
  rw [Outcome.passes_eq_isNone, Outcome.passes_eq_isNone, h.head_eq]

theorem map (f : α → β) (h : first.Agrees all) : (first.map f).Agrees (all.map f) :=
  ⟨h.head_eq, fun hp => congrArg f (h.value_eq hp), h.breaksOff⟩

theorem under (key : String) (h : first.Agrees all) : (first.under key).Agrees (all.under key) := by
  refine ⟨?_, fun hp => h.value_eq ?_, h.breaksOff⟩
  · change (first.toOutcome.under key).findings.head? = (all.toOutcome.under key).findings.head?
    rw [Outcome.under, Outcome.under, List.head?_map, List.head?_map, h.head_eq]
  · exact (Outcome.passes_under key first.toOutcome).symm.trans hp

/-- The run that ends with its first finding against a run that may go on. -/
theorem andThen (stop : Bool) {f g : α → Run α} (h : first.Agrees all)
    (hn : (f first.value).Agrees (g first.value)) :
    (first.andThen true f).Agrees (all.andThen stop g) := by
  by_cases hp : first.passes = true
  · have hall : all.passes = true := h.passes_eq ▸ hp
    rw [andThen_of_passes hp, andThen_of_passes hall, ← h.value_eq hp]
    refine ⟨?_, fun hq => hn.value_eq ?_, ?_⟩
    · change (first.findings ++ _).head? = (all.findings ++ _).head?
      rw [(Outcome.passes_iff _).mp hp, (Outcome.passes_iff _).mp hall]
      exact hn.head_eq
    · have hnil : first.findings ++ (f first.value).findings = [] := (Outcome.passes_iff _).mp hq
      exact (Outcome.passes_iff _).mpr (List.append_eq_nil_iff.mp hnil).2
    · simp only [both, Bool.or_eq_true]
      exact Or.imp h.breaksOff hn.breaksOff
  · -- the first run is over, and the other one keeps its first finding in front
    have hend : first.andThen true f = first := by simp [Run.andThen, hp]
    have hall : ¬ all.passes = true := h.passes_eq ▸ hp
    rw [hend]
    refine ⟨?_, fun hq => absurd hq hp, fun hb => ?_⟩
    · rw [toOutcome_andThen, Outcome.head?_andThen hall, h.head_eq]
    · rw [breaksOff_andThen, h.breaksOff hb, Bool.true_or]

end Agrees

theorem agrees_ite {c : Prop} [Decidable c] {first all first' all' : Run α}
    (h : first.Agrees all) (h' : first'.Agrees all') :
    (if c then first else first').Agrees (if c then all else all') := by
  by_cases hc : c
  · rwa [if_pos hc, if_pos hc]
  · rwa [if_neg hc, if_neg hc]

theorem agrees_cons (stop : Bool) {first all : Run α} {rest : List α}
    {f g : List α → Run (List α)} (h : first.Agrees all)
    (hrest : (f rest).Agrees (g rest)) :
    (cons true first rest f).Agrees (cons stop all rest g) := by
  have hpair : ((first.map fun x => (x, rest)).andThen true fun parts =>
      (f parts.2).map fun rest => (parts.1, rest)).Agrees
        ((all.map fun x => (x, rest)).andThen stop fun parts =>
          (g parts.2).map fun rest => (parts.1, rest)) :=
    (h.map fun x => (x, rest)).andThen stop (hrest.map fun rest => (first.value, rest))
  exact hpair.map fun parts => parts.1 :: parts.2

theorem agrees_inTurn (stop : Bool) {f g : σ → α → Run α} :
    ∀ {ss : List σ}, (∀ s ∈ ss, ∀ value, (f s value).Agrees (g s value)) →
      ∀ value, (inTurn true f ss value).Agrees (inTurn stop g ss value)
  | [], _, value => .refl (ok value)
  | s :: rest, h, value => by
    have hrest := agrees_inTurn stop fun t ht => h t (List.mem_cons_of_mem s ht)
    exact (h s List.mem_cons_self value).andThen stop (hrest _)

section Containers

variable {f g : α → Run α} {r r' : String → α → Run α}

theorem agrees_eachItem (stop : Bool) (h : ∀ x, (f x).Agrees (g x)) :
    ∀ (items : List α) (index : Nat),
      (eachItem true f index items).Agrees (eachItem stop g index items)
  | [], _ => .refl (ok [])
  | x :: rest, index => by
    rw [eachItem_cons, eachItem_cons]
    exact agrees_cons stop ((h x).under _) (agrees_eachItem stop h rest (index + 1))

theorem agrees_eachMember (stop : Bool) (h : ∀ key x, (r key x).Agrees (r' key x)) :
    ∀ members : List (String × α), (eachMember true r members).Agrees (eachMember stop r' members)
  | [] => .refl (ok [])
  | (key, x) :: rest => by
    rw [eachMember_cons, eachMember_cons]
    exact agrees_cons stop (((h key x).under key).map _) (agrees_eachMember stop h rest)

theorem agrees_atMember (key : String) (h : ∀ x, (f x).Agrees (g x)) :
    ∀ members : List (String × α), (atMember key f members).Agrees (atMember key g members)
  | [] => .refl (ok [])
  | (k, x) :: rest => by
    rw [atMember, atMember]
    exact agrees_ite (((h x).under key).map _) ((agrees_atMember key h rest).map _)

end Containers

/-- Of the findings of several runs, the first one is the same. -/
theorem head?_flatMap_findings {firsts alls : List (Run α)} (h : List.Forall₂ Agrees firsts alls) :
    ((firsts.map (·.toOutcome)).flatMap (·.findings)).head? =
      ((alls.map (·.toOutcome)).flatMap (·.findings)).head? := by
  induction h with
  | nil => rfl
  | cons hx _ ih =>
    rw [List.map_cons, List.map_cons, List.flatMap_cons, List.flatMap_cons, List.head?_append,
      List.head?_append, hx.head_eq, ih]

/-- The runs that pass are the same ones. -/
theorem agrees_filter_passes {firsts alls : List (Run α)} (h : List.Forall₂ Agrees firsts alls) :
    List.Forall₂ Agrees (firsts.filter (·.passes)) (alls.filter (·.passes)) :=
  List.rel_filter (fun _ _ hx => Bool.eq_iff_iff.mp hx.passes_eq) h

end Run

namespace Schema

open Run

/-! ### Combinations -/

section Branches

variable {firsts alls : List (Run Json)} (value : Json)

/-- When no branch decides, the findings of all branches come before the one of the combination. -/
theorem head?_unmatched (violation : Violation) (h : List.Forall₂ Agrees firsts alls) :
    ((firsts.map (·.toOutcome)).flatMap (·.findings) ++ [Finding.here violation]).head? =
      ((alls.map (·.toOutcome)).flatMap (·.findings) ++ [Finding.here violation]).head? := by
  rw [List.head?_append, List.head?_append, head?_flatMap_findings h]

/-- The longer runs of the branches come to no branch that the shorter ones do not come to. -/
theorem anyBreaksOff_mono (h : List.Forall₂ Agrees firsts alls) :
    anyBreaksOff firsts = true → anyBreaksOff alls = true := by
  induction h with
  | nil => exact id
  | cons hx _ ih =>
    simp only [anyBreaksOff, Bool.or_eq_true, Bool.and_eq_true, hx.passes_eq]
    exact Or.imp hx.breaksOff (And.imp_right ih)

theorem any_breaksOff_mono (h : List.Forall₂ Agrees firsts alls) :
    firsts.any (·.breaksOff) = true → alls.any (·.breaksOff) = true := by
  induction h with
  | nil => exact id
  | cons hx _ ih =>
    simp only [List.any_cons, Bool.or_eq_true]
    exact Or.imp hx.breaksOff ih

theorem agrees_anyOfRun (h : List.Forall₂ Agrees firsts alls) :
    (anyOfRun value firsts).Agrees (anyOfRun value alls) := by
  -- the branch that decides is the first of those that pass, and these correspond one by one
  have hpassing := agrees_filter_passes h
  have hhead := head?_unmatched .anyOf h
  have hbreaks := anyBreaksOff_mono h
  have hfind : ∀ runs : List (Run Json), (runs.map (·.toOutcome)).find? (·.passes) =
      (runs.filter (·.passes)).head?.map (·.toOutcome) := fun runs => by
    rw [List.find?_map, List.head?_filter]
    rfl
  rw [anyOfRun, anyOfRun, anyOfOutcome, anyOfOutcome, hfind, hfind]
  generalize firsts.filter (·.passes) = ps at hpassing ⊢
  generalize alls.filter (·.passes) = qs at hpassing ⊢
  cases hpassing with
  | nil => exact ⟨hhead, fun hp => absurd hp (by simp [Outcome.passes]), hbreaks⟩
  | cons hbranch _ => exact ⟨hbranch.head_eq, hbranch.value_eq, hbreaks⟩

theorem agrees_oneOfRun (h : List.Forall₂ Agrees firsts alls) :
    (oneOfRun value firsts).Agrees (oneOfRun value alls) := by
  have hpassing := agrees_filter_passes h
  have hhead := head?_unmatched .oneOf h
  have hbreaks := any_breaksOff_mono h
  have hfilter : ∀ runs : List (Run Json), (runs.map (·.toOutcome)).filter (·.passes) =
      (runs.filter (·.passes)).map (·.toOutcome) := fun runs => List.filter_map
  rw [oneOfRun, oneOfRun, oneOfOutcome, oneOfOutcome, hfilter, hfilter]
  generalize firsts.filter (·.passes) = ps at hpassing ⊢
  generalize alls.filter (·.passes) = qs at hpassing ⊢
  cases hpassing with
  | nil => exact ⟨hhead, fun hp => absurd hp (by simp [Outcome.passes]), hbreaks⟩
  | cons hbranch hrest =>
    cases hrest with
    | nil => exact ⟨hbranch.head_eq, hbranch.value_eq, hbreaks⟩
    | cons _ _ => exact ⟨rfl, fun _ => rfl, hbreaks⟩

theorem agrees_notRun {first all : Run Json} (h : first.Agrees all) :
    (notRun value first).Agrees (notRun value all) := by
  rw [notRun, notRun, notOutcome, notOutcome, h.passes_eq]
  exact ⟨rfl, fun _ => rfl, h.breaksOff⟩

end Branches

/-! ### The stages -/

variable [Pattern.Engine]

section Stages

variable {o : Options} {s : Schema}

/-- The children of a schema agree on every value. -/
def ChildrenAgree (o : Options) (s : Schema) : Prop :=
  ∀ t, Child t s → ∀ listed value,
    (t.run (o.reporting false) listed value).Agrees (t.run (o.reporting true) listed value)

theorem agrees_runDeclared (h : ChildrenAgree o s) (members : List (String × Json)) :
    (s.runDeclared (o.reporting false) members).Agrees
      (s.runDeclared (o.reporting true) members) :=
  agrees_inTurn false
    (fun e he => agrees_atMember e.1 fun x => h e.2 (.property he) false x) members

theorem agrees_runPatterned (h : ChildrenAgree o s) (members : List (String × Json)) :
    (s.runPatterned (o.reporting false) members).Agrees
      (s.runPatterned (o.reporting true) members) := by
  refine agrees_eachMember false (fun key x => agrees_ite (.refl (ok x)) ?_) members
  refine agrees_inTurn false (fun e he value => ?_) x
  exact agrees_ite (h e.2 (.pattern he) false value) (.refl (ok value))

theorem agrees_runExtra (h : ChildrenAgree o s) (members : List (String × Json)) :
    (s.runExtra (o.reporting false) members).Agrees
      (s.runExtra (o.reporting true) members) := by
  rw [runExtra.eq_def, runExtra.eq_def]
  cases hs : s.additional with
  | schema t =>
    refine agrees_eachMember false (fun key x => ?_) members
    exact agrees_ite (h t (.additional hs) false x) (.refl (ok x))
  | unspecified => exact .refl (ok members)
  | allowed b => exact .refl (ok members)

theorem agrees_runMembers (h : ChildrenAgree o s) (members : List (String × Json)) :
    (s.runMembers (o.reporting false) members).Agrees
      (s.runMembers (o.reporting true) members) := by
  refine (Agrees.refl (broken members (s.keyViolations members))).andThen false ?_
  refine (agrees_runDeclared h _).andThen false ?_
  exact (agrees_runPatterned h _).andThen false (agrees_runExtra h _)

theorem agrees_runElements (h : ChildrenAgree o s) (listed : Bool) (items : List Json) :
    (s.runElements (o.reporting false) listed items).Agrees
      (s.runElements (o.reporting true) listed items) := by
  rw [runElements, runElements]
  cases hs : s.items with
  | none => exact .refl (ok items)
  | some t => exact agrees_eachItem listed (h t (.items hs) false) items 0

theorem agrees_runContent (h : ChildrenAgree o s) (listed : Bool) (value : Json) :
    (s.runContent (o.reporting false) listed value).Agrees
      (s.runContent (o.reporting true) listed value) := by
  cases value with
  | array items =>
    have hitems := (Agrees.refl (broken items (s.array.violations items))).andThen false
      (agrees_runElements h listed items)
    exact hitems.map Json.array
  | object members => exact (agrees_runMembers h (s.prepare o members)).map Json.object
  | null => exact .refl _
  | bool b => exact .refl _
  | number n => exact .refl _
  | string text => exact .refl _

theorem agrees_runBranches {combine : Json → List (Run Json) → Run Json}
    {branches : Option (List Schema)} (h : ChildrenAgree o s)
    (hbranches : ∀ ts, branches = some ts → ∀ t ∈ ts, Child t s)
    (hcombine : ∀ {firsts alls} value, List.Forall₂ Agrees firsts alls →
      (combine value firsts).Agrees (combine value alls)) (value : Json) :
    (runBranches combine (o.reporting false) branches value).Agrees
      (runBranches combine (o.reporting true) branches value) := by
  rw [runBranches.eq_def, runBranches.eq_def]
  split
  · next t rest =>
    refine hcombine value ?_
    rw [List.forall₂_map_left_iff, List.forall₂_map_right_iff, List.forall₂_same]
    exact fun u hu => h u (hbranches _ rfl u hu) false value
  · exact .refl (ok value)

theorem agrees_runNegated (h : ChildrenAgree o s) (value : Json) :
    (s.runNegated (o.reporting false) value).Agrees
      (s.runNegated (o.reporting true) value) := by
  rw [runNegated, runNegated]
  cases hs : s.not with
  | none => exact .refl (ok value)
  | some t => exact agrees_notRun value (h t (.not hs) false value)

theorem agrees_runCombinations (h : ChildrenAgree o s) (listed : Bool) (value : Json) :
    (s.runCombinations (o.reporting false) listed value).Agrees
      (s.runCombinations (o.reporting true) listed value) := by
  refine (agrees_inTurn false (fun t ht => h t (.ofAllOf ht) listed) value).andThen false ?_
  refine (agrees_runBranches h (fun ts hs t ht => .anyOf hs ht) agrees_anyOfRun _).andThen false ?_
  exact (agrees_runBranches h (fun ts hs t ht => .oneOf hs ht) agrees_oneOfRun _).andThen false
    (agrees_runNegated h _)

end Stages

/-- The run up to the first finding agrees with the run to the end, on every value. -/
theorem agrees_run (o : Options) (s : Schema) : ∀ (listed : Bool) (value : Json),
    (s.run (o.reporting false) listed value).Agrees
      (s.run (o.reporting true) listed value) := by
  induction s using Schema.induction with
  | step s ih =>
    intro listed value
    by_cases hnull : value = .null ∧ s.nullable = true
    · rw [run_null hnull, run_null hnull]
      exact .refl (ok value)
    · cases hkind : s.admit? o value with
      | none =>
        rw [run_refused (o := o.reporting false) hnull hkind,
          run_refused (o := o.reporting true) hnull hkind]
        exact .refl _
      | some admitted =>
        rw [run_admitted (o := o.reporting false) hnull hkind,
          run_admitted (o := o.reporting true) hnull hkind]
        have hown := (Agrees.refl (broken admitted (s.valueViolations admitted))).andThen false
          (agrees_runContent ih listed admitted)
        exact hown.andThen false (agrees_runCombinations ih listed _)

end Schema

/-! ### Reports -/

/-- The first report tells of the first issue what the second one tells of all. -/
structure Report.IsFirstOf {α : Type} (first all : Report α) : Prop where
  passes_iff : first.issues = [] ↔ all.issues = []
  value_eq : all.issues = [] → first.value = all.value
  single : all.issues ≠ [] → ∃ issue, first.issues = [issue] ∧ all.issues.head? = some issue

theorem Run.Agrees.isFirstOf {α : Type} {first all : Run α} (h : first.Agrees all)
    (o : Options) : (Report.ofOutcome (o.reporting false) first.toOutcome).IsFirstOf
      (Report.ofOutcome (o.reporting true) all.toOutcome) := by
  refine ⟨?_, fun hall => ?_, fun hall => ?_⟩
  · rw [Report.issues_ofOutcome_eq_nil, Report.issues_ofOutcome_eq_nil, h.passes_eq]
  · rw [Report.issues_ofOutcome_eq_nil, ← h.passes_eq] at hall
    exact h.value_eq hall
  · obtain ⟨issue, rest, hissues⟩ := List.exists_cons_of_ne_nil hall
    have hhead : (all.findings.map Finding.toIssue).head? = some issue := congrArg List.head? hissues
    refine ⟨issue, ?_, hhead⟩
    change (first.findings.take 1).map Finding.toIssue = [issue]
    rw [List.take_one, h.head_eq, ← Option.toList_map, ← List.head?_map, hhead, Option.toList_some]

/-- Where the longer run has a report, the shorter one has a report of its first issue. -/
theorem Run.Agrees.exists_isFirstOf {α : Type} {first all : Run α} (h : first.Agrees all)
    (o : Options) {report : Report α} (hall : Report.ofRun? (o.reporting true) all = some report) :
    ∃ cut, Report.ofRun? (o.reporting false) first = some cut ∧ cut.IsFirstOf report := by
  rw [Report.ofRun?_eq_some] at hall
  obtain ⟨hend, rfl⟩ := hall
  have hfirst : first.breaksOff = false := Bool.eq_false_iff.mpr fun hb => by
    rw [h.breaksOff hb] at hend
    cases hend
  exact ⟨_, Report.ofRun?_eq_some.mpr ⟨hfirst, rfl⟩, h.isFirstOf o⟩

namespace Validator

/-- Where the run that reports every error does not break off, the one that reports the first error only
does not either: it passes what the other one passes, leaves it as that one does, and otherwise reports the
first of its issues. This holds of single values and of lists, and of all of them if the schema asks for no
time. -/
theorem firstError_agrees [Pattern.Engine] {s : Schema} {o : Options} {all : Validator}
    (h : compile s (o.reporting true) = .ok all) :
    ∃ first, compile s (o.reporting false) = .ok first ∧
      (∀ value report, all.validate? value = some report →
        ∃ cut, first.validate? value = some cut ∧ cut.IsFirstOf report) ∧
      (∀ values report, all.validateList? values = some report →
        ∃ cut, first.validateList? values = some cut ∧ cut.IsFirstOf report) ∧
      (s.Timeless → (∀ value, ∃ report, all.validate? value = some report) ∧
        ∀ values, ∃ report, all.validateList? values = some report) := by
  obtain ⟨hschema, hoptions⟩ := compile_eq_ok h
  have hchecked := check_of_compile h
  refine ⟨_, compile_of_check (o := o.reporting false) hchecked, fun value report => ?_,
    fun values report => ?_,
    fun htimeless => ⟨exists_report (hschema ▸ htimeless), exists_listReport (hschema ▸ htimeless)⟩⟩
  · rw [validate?, validate?, hschema, hoptions]
    exact (s.agrees_run o false value).exists_isFirstOf o
  · rw [validateList?, validateList?, hschema, hoptions]
    exact ((s.agrees_run o true (.array values)).map elements).exists_isFirstOf o

/-- A closed object that must have a name. -/
def named : Schema where
  kind := some .object
  additional := .allowed false
  properties := [("name", Schema.ofKind .string)]
  required := some ["name"]

/-- An object without the name, and with a member that is not declared, has two issues. -/
theorem firstError_named :
    ∃ all first report cut, compile named (Options.reporting {} true) = .ok all ∧
      compile named (Options.reporting {} false) = .ok first ∧
      all.validate? (.object [("n", .null)]) = some report ∧ report.issues.length = 2 ∧
      first.validate? (.object [("n", .null)]) = some cut ∧
      cut.issues = [⟨"", .required, "must have required property 'name'"⟩] := by
  have hcompiled : compile named (Options.reporting {} true) =
      .ok ⟨named, Options.reporting {} true, rfl⟩ := rfl
  have hall : (Validator.mk named (Options.reporting {} true) rfl).validate?
      (.object [("n", .null)]) = some _ := rfl
  obtain ⟨first, hfirst, hvalue, _⟩ := firstError_agrees hcompiled
  obtain ⟨cut, hcut, hagrees⟩ := hvalue _ _ hall
  obtain ⟨issue, hissue, hhead⟩ := hagrees.single (by decide)
  have hrequired : some issue = some ⟨"", .required, "must have required property 'name'"⟩ :=
    hhead.symm.trans (by decide)
  cases hrequired
  exact ⟨_, first, _, cut, hcompiled, hfirst, hall, rfl, hcut, hissue⟩

/-- A count with a time, or anything else. -/
def countedOrAny : Schema where
  anyOf := some [{ properties := [("count", Schema.ofKind .integer),
    ("time", { text := { format := some "time" } })] }, {}]

/-- The first branch is left at the count when the first error ends it; otherwise the run goes on to the time
and breaks off there. -/
theorem firstError_not_agrees :
    ¬ ∀ (s : Schema) (o : Options) (first all : Validator) (value : Json),
      compile s (o.reporting false) = .ok first → compile s (o.reporting true) = .ok all →
        (first.Passes value ↔ all.Passes value) := by
  intro hagree
  have hiff := hagree countedOrAny {} _ _
    (.object [("count", .string "x"), ("time", .string Format.arabicTime)]) rfl rfl
  have hpasses := hiff.mp (passes_iff.mpr ⟨by decide, by decide⟩)
  exact absurd (passes_iff.mp hpasses).1 (by decide)

end Validator

end DataSchema
