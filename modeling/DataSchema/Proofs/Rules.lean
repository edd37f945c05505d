import DataSchema.Proofs.Evaluation
import DataSchema.Proofs.Nesting

/-!
The rules that findings come from.

Whatever is found in a value breaks a rule that some schema in the tree has for itself (`Schema.Makes`): a
condition that holds of all violations these rules can make holds of every finding, under any policy
(`Schema.breaksOnly_evaluate`). In particular a finding that a member is missing names a member that a schema
in the tree requires (`Schema.exists_requires_of_finding`).
-/

namespace DataSchema

namespace Outcome

variable {α β σ : Type} {p : Violation → Prop}

/-- Every finding is a violation that meets the condition. -/
def BreaksOnly (p : Violation → Prop) (x : Outcome α) : Prop := ∀ f ∈ x.findings, p f.violation

theorem breaksOnly_ok (value : α) : (ok value).BreaksOnly p := nofun

theorem breaksOnly_broken (value : α) {vs : List Violation} (h : ∀ v ∈ vs, p v) :
    (broken value vs).BreaksOnly p := List.forall_mem_map.mpr h

theorem BreaksOnly.map {x : Outcome α} (f : α → β) (h : x.BreaksOnly p) : (x.map f).BreaksOnly p := h

theorem BreaksOnly.under {x : Outcome α} (key : String) (h : x.BreaksOnly p) :
    (x.under key).BreaksOnly p := List.forall_mem_map.mpr h

theorem BreaksOnly.andThen {x : Outcome α} {next : α → Outcome α} (stop : Bool) (h : x.BreaksOnly p)
    (hnext : ∀ value, (next value).BreaksOnly p) : (x.andThen stop next).BreaksOnly p := by
  rw [Outcome.andThen]
  split
  · exact h
  · exact List.forall_mem_append.mpr ⟨h, hnext x.value⟩

theorem breaksOnly_ite {c : Prop} [Decidable c] {x y : Outcome α} (hx : x.BreaksOnly p)
    (hy : y.BreaksOnly p) : (if c then x else y).BreaksOnly p := by
  split
  · exact hx
  · exact hy

theorem breaksOnly_inTurn (stop : Bool) {rule : σ → α → Outcome α} : ∀ {ss : List σ},
    (∀ s ∈ ss, ∀ value, (rule s value).BreaksOnly p) → ∀ value, (inTurn stop rule ss value).BreaksOnly p
  | [], _, value => breaksOnly_ok value
  | s :: rest, h, value => by
    rw [List.forall_mem_cons] at h
    exact (h.1 value).andThen stop (breaksOnly_inTurn stop h.2)

theorem breaksOnly_cons (stop : Bool) {first : Outcome α} {rest : List α}
    {others : List α → Outcome (List α)} (hfirst : first.BreaksOnly p)
    (hothers : (others rest).BreaksOnly p) : (cons stop first rest others).BreaksOnly p := by
  rw [cons_eq]
  split
  · exact hfirst
  · exact List.forall_mem_append.mpr ⟨hfirst, hothers⟩

theorem breaksOnly_eachItem (stop : Bool) {rule : α → Outcome α} (h : ∀ x, (rule x).BreaksOnly p) :
    ∀ (index : Nat) (items : List α), (eachItem stop rule index items).BreaksOnly p
  | _, [] => breaksOnly_ok []
  | index, x :: rest => by
    rw [eachItem_cons]
    exact breaksOnly_cons stop ((h x).under _) (breaksOnly_eachItem stop h (index + 1) rest)

theorem breaksOnly_eachMember (stop : Bool) {rule : String → α → Outcome α}
    (h : ∀ key x, (rule key x).BreaksOnly p) :
    ∀ members : List (String × α), (eachMember stop rule members).BreaksOnly p
  | [] => breaksOnly_ok []
  | (key, x) :: rest => by
    rw [eachMember_cons]
    exact breaksOnly_cons stop (((h key x).under key).map _) (breaksOnly_eachMember stop h rest)

theorem breaksOnly_atMember (key : String) {rule : α → Outcome α} (h : ∀ x, (rule x).BreaksOnly p) :
    ∀ members : List (String × α), (atMember key rule members).BreaksOnly p
  | [] => breaksOnly_ok []
  | (k, x) :: rest => by
    rw [atMember]
    exact breaksOnly_ite (((h x).under key).map _) ((breaksOnly_atMember key h rest).map _)

end Outcome

namespace Schema

open Outcome

variable {s : Schema} {o : Options} {p : Violation → Prop} {listed : Bool}

/-! ### The rules of one schema -/

/-- The violations that a schema can find in some value, the schemas below it apart. -/
inductive Makes [Pattern.Engine] (s : Schema) : Violation → Prop where
  | kind {v : Violation} : v ∈ s.kindViolations → Makes s v
  | value {v : Violation} (value : Json) : v ∈ s.valueViolations value → Makes s v
  | text {v : Violation} (text : String) : v ∈ s.text.violations text → Makes s v
  | number {v : Violation} (x : Binary64) : v ∈ s.number.violations x → Makes s v
  | array {v : Violation} (items : List Json) : v ∈ s.array.violations items → Makes s v
  | object {v : Violation} (members : List (String × Json)) : v ∈ s.keyViolations members → Makes s v
  | anyOf : Makes s .anyOf
  | oneOf : Makes s .oneOf
  | not : Makes s .not

/-! ### Combinations -/

section Branches

variable {value : Json} {branches : List (Outcome Json)}

/-- The findings of all branches, and one more. -/
theorem breaksOnly_failed {v : Violation} (h : ∀ x ∈ branches, x.BreaksOnly p) (hv : p v) :
    (Outcome.mk value (branches.flatMap (·.findings) ++ [.here v])).BreaksOnly p := by
  refine List.forall_mem_append.mpr ⟨fun f hf => ?_, List.forall_mem_singleton.mpr hv⟩
  obtain ⟨x, hx, hf⟩ := List.mem_flatMap.mp hf
  exact h x hx f hf

theorem breaksOnly_anyOfOutcome (h : ∀ x ∈ branches, x.BreaksOnly p) (hv : p .anyOf) :
    (anyOfOutcome value branches).BreaksOnly p := by
  rw [anyOfOutcome]
  split
  · next branch hfound => exact h branch (List.mem_of_find?_eq_some hfound)
  · exact breaksOnly_failed h hv

theorem breaksOnly_oneOfOutcome (h : ∀ x ∈ branches, x.BreaksOnly p) (hv : p .oneOf) :
    (oneOfOutcome value branches).BreaksOnly p := by
  rw [oneOfOutcome]
  split
  · next branch honly =>
    have hmem : branch ∈ branches.filter (·.passes) := honly ▸ List.mem_singleton_self branch
    exact h branch (List.mem_filter.mp hmem).1
  · exact breaksOnly_failed h hv
  · exact breaksOnly_broken value (List.forall_mem_singleton.mpr hv)

theorem breaksOnly_ofBranches [Pattern.Engine] {combine : Json → List (Outcome Json) → Outcome Json}
    {branches : Option (List Schema)}
    (hcombine : ∀ {value branches}, (∀ x ∈ branches, x.BreaksOnly p) →
      (combine value branches).BreaksOnly p)
    (h : ∀ ts, branches = some ts → ∀ t ∈ ts, ∀ value, (t.evaluate o false value).BreaksOnly p)
    (value : Json) : (ofBranches combine o branches value).BreaksOnly p := by
  rw [ofBranches.eq_def]
  split
  · next t rest => exact hcombine (List.forall_mem_map.mpr fun u hu => h (t :: rest) rfl u hu value)
  · exact breaksOnly_ok value

end Branches

/-! ### The whole tree -/

variable [Pattern.Engine]

section Stages

variable (hown : ∀ v, s.Makes v → p v)
  (h : ∀ t, Child t s → ∀ listed value, (t.evaluate o listed value).BreaksOnly p)

include hown h

theorem breaksOnly_evaluateMembers (members : List (String × Json)) :
    (s.evaluateMembers o members).BreaksOnly p := by
  have hkeys : (Outcome.broken members (s.keyViolations members)).BreaksOnly p :=
    breaksOnly_broken members fun v hv => hown v (.object members hv)
  have hdeclared : ∀ members, (s.evaluateDeclared o members).BreaksOnly p :=
    breaksOnly_inTurn _ fun e he => breaksOnly_atMember e.1 (h e.2 (.property he) false)
  have hpatterned : ∀ members, (s.evaluatePatterned o members).BreaksOnly p := by
    refine breaksOnly_eachMember _ fun key value => breaksOnly_ite (breaksOnly_ok value) ?_
    exact breaksOnly_inTurn _
      (fun e he value => breaksOnly_ite (h e.2 (.pattern he) false value) (breaksOnly_ok value)) value
  have hextra : ∀ members, (s.evaluateExtra o members).BreaksOnly p := by
    intro members
    rw [evaluateExtra]
    split
    · next t ht =>
      exact breaksOnly_eachMember _
        (fun key value => breaksOnly_ite (h t (.additional ht) false value) (breaksOnly_ok value)) members
    · exact breaksOnly_ok members
  exact hkeys.andThen _ fun members =>
    (hdeclared members).andThen _ fun members => (hpatterned members).andThen _ hextra

theorem breaksOnly_evaluateContent (value : Json) :
    (s.evaluateContent o listed value).BreaksOnly p := by
  cases value with
  | string text => exact breaksOnly_broken _ fun v hv => hown v (.text text hv)
  | number n => exact breaksOnly_broken _ fun v hv => hown v (.number n.toDouble hv)
  | array items =>
    have hitems : (Outcome.broken items (s.array.violations items)).BreaksOnly p :=
      breaksOnly_broken items fun v hv => hown v (.array items hv)
    refine (hitems.andThen _ fun items => ?_).map Json.array
    rw [evaluateElements]
    split
    · next t ht => exact breaksOnly_eachItem _ (h t (.items ht) false) 0 items
    · exact breaksOnly_ok items
  | object members => exact (breaksOnly_evaluateMembers hown h _).map Json.object
  | null => exact breaksOnly_ok _
  | bool b => exact breaksOnly_ok _

theorem breaksOnly_evaluateCombinations (value : Json) :
    (s.evaluateCombinations o listed value).BreaksOnly p := by
  have hall := breaksOnly_inTurn o.stops fun t (ht : t ∈ s.allOf.getD []) => h t (.ofAllOf ht) listed
  have hany : ∀ value, (ofBranches anyOfOutcome o s.anyOf value).BreaksOnly p :=
    breaksOnly_ofBranches (fun hb => breaksOnly_anyOfOutcome hb (hown _ .anyOf))
      fun ts hs t ht => h t (.anyOf hs ht) false
  have hone : ∀ value, (ofBranches oneOfOutcome o s.oneOf value).BreaksOnly p :=
    breaksOnly_ofBranches (fun hb => breaksOnly_oneOfOutcome hb (hown _ .oneOf))
      fun ts hs t ht => h t (.oneOf hs ht) false
  have hnot : ∀ value, (s.evaluateNegated o value).BreaksOnly p := by
    intro value
    rw [evaluateNegated]
    split
    · exact breaksOnly_ite (breaksOnly_broken value (List.forall_mem_singleton.mpr (hown _ .not)))
        (breaksOnly_ok value)
    · exact breaksOnly_ok value
  exact (hall value).andThen _ fun value =>
    (hany value).andThen _ fun value => (hone value).andThen _ hnot

end Stages

/-- Every finding is a violation of a rule that some schema in the tree has. -/
theorem breaksOnly_evaluate (s : Schema) : (∀ t, Within t s → ∀ v, t.Makes v → p v) →
    ∀ listed value, (s.evaluate o listed value).BreaksOnly p := by
  induction s using Schema.induction with
  | step s ih =>
    intro hmakes listed value
    have hown : ∀ v, s.Makes v → p v := hmakes s (.refl s)
    have hchildren : ∀ t, Child t s → ∀ listed value, (t.evaluate o listed value).BreaksOnly p :=
      fun t ht => ih t ht fun u hu => hmakes u (.step ht hu)
    rw [evaluate_eq]
    refine breaksOnly_ite (breaksOnly_ok value) ?_
    split
    · exact breaksOnly_broken value fun v hv => hown v (.kind hv)
    · next admitted _ =>
      have hvalue : (Outcome.broken admitted (s.valueViolations admitted)).BreaksOnly p :=
        breaksOnly_broken admitted fun v hv => hown v (.value admitted hv)
      exact (hvalue.andThen _ (breaksOnly_evaluateContent hown hchildren)).andThen _
        (breaksOnly_evaluateCombinations hown hchildren)

/-! ### Missing members -/

theorem requires_of_makes {name : String} (h : s.Makes (.required name)) : name ∈ s.requiredNames := by
  have hfacet : ∀ {α : Type} {broken : α → Bool} {violation : α → Violation} {facet : Option α},
      (∀ x, violation x ≠ .required name) → .required name ∉ brokenFacet broken violation facet := by
    rintro α broken violation (_ | x) hne hmem
    · cases hmem
    · rw [brokenFacet] at hmem
      split at hmem
      · exact hne x (List.mem_singleton.mp hmem).symm
      · cases hmem
  cases h with
  | kind h => simp [kindViolations] at h
  | value _ h => simp [valueViolations, hfacet] at h
  | text _ h => simp [TextFacets.violations, hfacet] at h
  | number _ h => simp [NumberFacets.violations, hfacet] at h
  | array items h =>
    simp only [ArrayFacets.violations, List.mem_append, hfacet, ne_eq, reduceCtorEq, not_false_eq_true,
      implies_true, false_or] at h
    split at h
    · split at h <;> simp at h
    · cases h
  | object members h =>
    rw [keyViolations, List.mem_append, List.mem_append] at h
    rcases h with (h | h) | h
    · obtain ⟨n, hn, hname⟩ := List.mem_map.mp h
      cases hname
      exact (List.mem_filter.mp hn).1
    · simp [ObjectFacets.violations, hfacet] at h
    · split at h <;> simp at h

/-- A finding that a member is missing names a member that some schema in the tree requires. -/
theorem exists_requires_of_finding {value : Json} {f : Finding}
    (hf : f ∈ (s.evaluate o listed value).findings) {name : String} (h : f.violation = .required name) :
    ∃ t, Within t s ∧ name ∈ t.requiredNames := by
  have hrules : (s.evaluate o listed value).BreaksOnly
      fun v => v = .required name → ∃ t, Within t s ∧ name ∈ t.requiredNames := by
    refine s.breaksOnly_evaluate ?_ listed value
    rintro t ht v hv rfl
    exact ⟨t, ht, requires_of_makes hv⟩
  exact hrules f hf h

end Schema

end DataSchema
