import DataSchema.Proofs.Nesting
import DataSchema.Proofs.Results
import DataSchema.Validation.Check

/-!
What the check of a schema asks.

The check stops at the first fault. It finds none exactly if the schema itself has no fault and the check
finds none in the schemas directly below it (`Schema.check_eq_ok_iff`).
-/

namespace DataSchema.Schema

variable [Pattern.Engine]

/-- The schema has no fault of its own. -/
structure Sound (strict : Bool) (s : Schema) : Prop where
  facets : s.facetFault? strict = none
  defaults : strict = true → ∀ e ∈ s.properties, s.optionalDefault e.1 e.2 = false
  patterns : ∀ e ∈ s.patternProperties, patternFault? e.1 = none

variable {strict : Bool}

omit [Pattern.Engine] in
theorem failure_eq_ok_iff (fault : Option SchemaFault) : failure fault = .ok () ↔ fault = none := by
  cases fault with
  | none => exact iff_of_true rfl rfl
  | some fault => exact iff_of_false nofun nofun

omit [Pattern.Engine] in
theorem nestedCheck_eq_ok_iff (keys : List String) (check : Except SchemaError Unit) :
    nestedCheck keys check = .ok () ↔ check = .ok () := by
  cases check with
  | ok _ => exact iff_of_true rfl rfl
  | error e => exact iff_of_false nofun nofun

theorem checkProperties_eq_ok_iff (owner : Schema) : ∀ ps : List (String × Schema),
    checkProperties strict owner ps = .ok () ↔ ∀ e ∈ ps,
      (strict = true → owner.optionalDefault e.1 e.2 = false) ∧ e.2.check strict = .ok ()
  | [] => by simp [checkProperties]
  | (name, s) :: rest => by
    rw [checkProperties, seq_eq_ok_iff, seq_eq_ok_iff, failure_eq_ok_iff, nestedCheck_eq_ok_iff,
      checkProperties_eq_ok_iff owner rest, List.forall_mem_cons, ← and_assoc]
    refine and_congr_left fun _ => and_congr_left fun _ => ?_
    cases strict <;> cases owner.optionalDefault name s <;> simp

theorem checkPatterns_eq_ok_iff : ∀ ps : List (String × Schema),
    checkPatterns strict ps = .ok () ↔
      ∀ e ∈ ps, patternFault? e.1 = none ∧ e.2.check strict = .ok ()
  | [] => by simp [checkPatterns]
  | (pattern, s) :: rest => by
    rw [checkPatterns, seq_eq_ok_iff, nestedCheck_eq_ok_iff, seq_eq_ok_iff, failure_eq_ok_iff,
      checkPatterns_eq_ok_iff rest, List.forall_mem_cons]

theorem checkAdditional_eq_ok_iff (additional : Additional Schema) :
    checkAdditional strict additional = .ok () ↔
      ∀ t, additional = .schema t → t.check strict = .ok () := by
  cases additional with
  | schema t => simp [checkAdditional, nestedCheck_eq_ok_iff]
  | unspecified => simp [checkAdditional]
  | allowed b => simp [checkAdditional]

theorem checkOption_eq_ok_iff (key : String) (option : Option Schema) :
    checkOption strict key option = .ok () ↔ ∀ t, option = some t → t.check strict = .ok () := by
  cases option with
  | none => simp [checkOption]
  | some t => simp [checkOption, nestedCheck_eq_ok_iff]

theorem checkList_eq_ok_iff (key : String) : ∀ (index : Nat) (ts : List Schema),
    checkList strict key index ts = .ok () ↔ ∀ t ∈ ts, t.check strict = .ok ()
  | _, [] => by simp [checkList]
  | index, t :: rest => by
    rw [checkList, seq_eq_ok_iff, nestedCheck_eq_ok_iff, checkList_eq_ok_iff key (index + 1) rest,
      List.forall_mem_cons]

theorem checkBranches_eq_ok_iff (key : String) (branches : Option (List Schema)) :
    checkBranches strict key branches = .ok () ↔
      ∀ ts, branches = some ts → ∀ t ∈ ts, t.check strict = .ok () := by
  cases branches with
  | none => simp [checkBranches]
  | some ts => simp [checkBranches, checkList_eq_ok_iff]

/-- A schema is checked before its children, and these in the order of their keywords. -/
theorem check_eq (s : Schema) : s.check strict = (do
    failure (s.facetFault? strict)
    checkProperties strict s s.properties
    checkPatterns strict s.patternProperties
    checkAdditional strict s.additional
    checkOption strict "items" s.items
    checkBranches strict "oneOf" s.oneOf
    checkBranches strict "allOf" s.allOf
    checkBranches strict "anyOf" s.anyOf
    checkOption strict "not" s.not) := by
  cases s
  rw [check]

/-- The check passes exactly if the schema is sound and the check of every child passes. -/
theorem check_eq_ok_iff (s : Schema) :
    s.check strict = .ok () ↔ s.Sound strict ∧ ∀ t, Child t s → t.check strict = .ok () := by
  rw [check_eq]
  simp only [seq_eq_ok_iff, failure_eq_ok_iff, checkProperties_eq_ok_iff, checkPatterns_eq_ok_iff,
    checkAdditional_eq_ok_iff, checkOption_eq_ok_iff, checkBranches_eq_ok_iff]
  rw [forall_child_iff]
  constructor
  · rintro ⟨hfacets, hproperties, hpatterns, hothers⟩
    exact ⟨⟨hfacets, fun hstrict e he => (hproperties e he).1 hstrict, fun e he => (hpatterns e he).1⟩,
      fun e he => (hproperties e he).2, fun e he => (hpatterns e he).2, hothers⟩
  · rintro ⟨hsound, hproperties, hpatterns, hothers⟩
    exact ⟨hsound.facets, fun e he => ⟨fun hstrict => hsound.defaults hstrict e he, hproperties e he⟩,
      fun e he => ⟨hsound.patterns e he, hpatterns e he⟩, hothers⟩

theorem check_of_within {s t : Schema} (ht : Within t s) (h : s.check strict = .ok ()) :
    t.check strict = .ok () := by
  induction ht with
  | refl => exact h
  | step hchild _ ih => exact ih (((check_eq_ok_iff _).mp h).2 _ hchild)

end DataSchema.Schema
