import DataSchema.Proofs.Evaluation
import DataSchema.Proofs.Nesting
import DataSchema.Proofs.Related

/-!
What a run can do to a value, whatever it finds.

A run converts scalars and prepares objects: anywhere in the value, any number of times, and also on a
copy that later takes the place of the value. A preorder between values that allows these two rewritings,
and is kept by containers whose parts it relates, relates a value to whatever a run leaves of it, also if
the run ends early (`Schema.obeys_evaluate`).
-/

namespace DataSchema

namespace Outcome

variable {α σ : Type}

/-- Whatever the rule leaves is related to what there was. -/
def Obeys (R : α → α → Prop) (rule : α → Outcome α) : Prop := ∀ value, R value (rule value).value

section Rules

variable {R : α → α → Prop} [IsPreorder α R] {rule next : α → Outcome α}

theorem obeys_ok : Obeys R (ok (α := α)) := refl_of R

theorem Obeys.andThen (stop : Bool) (h : Obeys R rule) (hnext : Obeys R next) :
    Obeys R fun value => (rule value).andThen stop next := by
  intro value
  rcases value_andThen (rule value) stop next with hleft | hleft <;> rw [hleft]
  · exact h value
  · exact trans_of R (h value) (hnext _)

theorem obeys_inTurn (stop : Bool) {rule : σ → α → Outcome α} : ∀ {ts : List σ},
    (∀ t ∈ ts, Obeys R (rule t)) → Obeys R (inTurn stop rule ts)
  | [], _ => obeys_ok
  | t :: rest, h => by
    rw [List.forall_mem_cons] at h
    exact h.1.andThen stop (obeys_inTurn stop h.2)

theorem obeys_if {c : Prop} [Decidable c] (h : Obeys R rule) :
    Obeys R fun value => if c then rule value else ok value := by
  intro value
  split
  · exact h value
  · exact refl_of R value

theorem forall₂_cons {stop : Bool} {first : Outcome α} {x : α} {rest : List α}
    {others : List α → Outcome (List α)} (h : R x first.value)
    (hothers : List.Forall₂ R rest (others rest).value) :
    List.Forall₂ R (x :: rest) (cons stop first rest others).value := by
  rw [cons_eq]
  split
  · exact .cons h (List.forall₂_refl rest)
  · exact .cons h hothers

theorem obeys_eachItem (stop : Bool) (h : Obeys R rule) : ∀ index : Nat,
    Obeys (List.Forall₂ R) (eachItem stop rule index)
  | _, [] => .nil
  | index, x :: rest => by
    rw [eachItem_cons]
    exact forall₂_cons (h x) (obeys_eachItem stop h (index + 1) rest)

theorem obeys_eachMember (stop : Bool) {rule : String → α → Outcome α} (h : ∀ key, Obeys R (rule key)) :
    Obeys (List.Forall₂ (Entries.Under R)) (eachMember stop rule)
  | [] => .nil
  | (key, x) :: rest => by
    rw [eachMember_cons]
    exact forall₂_cons (.intro (h key x)) (obeys_eachMember stop h rest)

theorem obeys_atMember (key : String) (h : Obeys R rule) :
    Obeys (List.Forall₂ (Entries.Under R)) (atMember key rule)
  | [] => .nil
  | (k, x) :: rest => by
    rw [atMember]
    split
    · exact .cons (.intro (h x)) (List.forall₂_refl rest)
    · exact .cons (.intro (refl_of R x)) (obeys_atMember key h rest)

end Rules

end Outcome

variable [Pattern.Engine]

namespace Schema

open Outcome

variable {R : Json → Json → Prop} {o : Options} {s : Schema}

/-- The relation allows the conversions and preparations of the schema and those below it, and is kept by
containers whose parts it relates. -/
structure Allows (o : Options) (s : Schema) (R : Json → Json → Prop) : Prop where
  array {xs ys : List Json} : List.Forall₂ R xs ys → R (.array xs) (.array ys)
  object {ms ns : List (String × Json)} :
    List.Forall₂ (Entries.Under R) ms ns → R (.object ms) (.object ns)
  admitted {t : Schema} {x y : Json} : Within t s → t.admit? o x = some y → R x y
  prepared {t : Schema} (ms : List (String × Json)) :
    Within t s → R (.object ms) (.object (t.prepare o ms))

theorem Allows.child {t : Schema} (h : s.Allows o R) (ht : Child t s) : t.Allows o R where
  array := h.array
  object := h.object
  admitted hu := h.admitted (.step ht hu)
  prepared ms hu := h.prepared ms (.step ht hu)

variable [IsPreorder Json R]

/-! ### Combinations -/

section Branches

variable {value : Json} {branches : List (Outcome Json)}

omit [Pattern.Engine] in
theorem related_anyOfOutcome (h : ∀ x ∈ branches, R value x.value) :
    R value (anyOfOutcome value branches).value := by
  rw [anyOfOutcome]
  split
  · next branch hfound => exact h branch (List.mem_of_find?_eq_some hfound)
  · exact refl_of R value

omit [Pattern.Engine] in
theorem related_oneOfOutcome (h : ∀ x ∈ branches, R value x.value) :
    R value (oneOfOutcome value branches).value := by
  rw [oneOfOutcome]
  split
  · next branch honly =>
    have hmem : branch ∈ branches.filter (·.passes) := honly ▸ List.mem_singleton_self branch
    exact h branch (List.mem_filter.mp hmem).1
  · exact refl_of R value
  · exact refl_of R value

theorem obeys_ofBranches {combine : Json → List (Outcome Json) → Outcome Json} {o : Options}
    {branches : Option (List Schema)}
    (hcombine : ∀ {value branches}, (∀ x ∈ branches, R value x.value) →
      R value (combine value branches).value)
    (h : ∀ ts, branches = some ts → ∀ t ∈ ts, Obeys R (t.evaluate o false)) :
    Obeys R (ofBranches combine o branches) := by
  intro value
  rw [ofBranches.eq_def]
  split
  · next t rest =>
    exact hcombine (List.forall_mem_map.mpr fun u hu => h (t :: rest) rfl u hu value)
  · exact refl_of R value

end Branches

/-! ### The whole tree -/

section Stages

variable (h : ∀ t, Child t s → ∀ listed, Obeys R (t.evaluate o listed))

include h

theorem obeys_evaluateMembers :
    Obeys (List.Forall₂ (Entries.Under R)) (s.evaluateMembers o) := by
  have hkeys : Obeys (List.Forall₂ (Entries.Under R))
      fun members => Outcome.broken members (s.keyViolations members) := List.forall₂_refl
  have hdeclared : Obeys (List.Forall₂ (Entries.Under R)) (s.evaluateDeclared o) :=
    obeys_inTurn _ fun e he => obeys_atMember e.1 (h e.2 (.property he) false)
  have hpatterned : Obeys (List.Forall₂ (Entries.Under R)) (s.evaluatePatterned o) := by
    refine obeys_eachMember _ fun key value => ?_
    split
    · exact refl_of R value
    · exact obeys_inTurn _ (fun e he => obeys_if (h e.2 (.pattern he) false)) value
  have hextra : Obeys (List.Forall₂ (Entries.Under R)) (s.evaluateExtra o) := by
    intro members
    rw [evaluateExtra]
    split
    · next t ht => exact obeys_eachMember _ (fun key => obeys_if (h t (.additional ht) false)) members
    · exact List.forall₂_refl members
  exact hkeys.andThen _ (hdeclared.andThen _ (hpatterned.andThen _ hextra))

theorem obeys_evaluateElements (listed : Bool) :
    Obeys (List.Forall₂ R) (s.evaluateElements o listed) := by
  intro items
  rw [evaluateElements]
  split
  · next t ht => exact obeys_eachItem _ (h t (.items ht) false) 0 items
  · exact List.forall₂_refl items

theorem obeys_evaluateContent (hallows : s.Allows o R) (listed : Bool) :
    Obeys R (s.evaluateContent o listed) := by
  intro value
  cases value with
  | array items =>
    have hitems : Obeys (List.Forall₂ R)
        fun items => Outcome.broken items (s.array.violations items) := List.forall₂_refl
    exact hallows.array (hitems.andThen _ (obeys_evaluateElements h listed) items)
  | object members =>
    exact trans_of R (hallows.prepared members (.refl s))
      (hallows.object (obeys_evaluateMembers h (s.prepare o members)))
  | null => exact refl_of R _
  | bool b => exact refl_of R _
  | number n => exact refl_of R _
  | string text => exact refl_of R _

theorem obeys_evaluateCombinations (listed : Bool) : Obeys R (s.evaluateCombinations o listed) := by
  have hall : Obeys R (inTurn o.stops (evaluate o listed) (s.allOf.getD [])) :=
    obeys_inTurn _ fun t ht => h t (.ofAllOf ht) listed
  have hany : Obeys R (ofBranches anyOfOutcome o s.anyOf) :=
    obeys_ofBranches related_anyOfOutcome fun ts hs t ht => h t (.anyOf hs ht) false
  have hone : Obeys R (ofBranches oneOfOutcome o s.oneOf) :=
    obeys_ofBranches related_oneOfOutcome fun ts hs t ht => h t (.oneOf hs ht) false
  -- the copy that runs under `not` is dropped
  have hnot : Obeys R (s.evaluateNegated o) := by
    intro value
    rw [evaluateNegated]
    cases s.not with
    | none => exact refl_of R value
    | some t =>
      dsimp only
      rw [notOutcome]
      split <;> exact refl_of R value
  exact hall.andThen _ (hany.andThen _ (hone.andThen _ hnot))

end Stages

/-- A run leaves of a value what every relation that allows its rewritings relates to the value. -/
theorem obeys_evaluate (s : Schema) : s.Allows o R → ∀ listed, Obeys R (s.evaluate o listed) := by
  induction s using Schema.induction with
  | step s ih =>
    intro hallows listed value
    have hchildren : ∀ t, Child t s → ∀ listed, Obeys R (t.evaluate o listed) := fun t ht =>
      ih t ht (hallows.child ht)
    by_cases hnull : value = .null ∧ s.nullable = true
    · rw [evaluate_null hnull]
      exact refl_of R value
    · cases hadmit : s.admit? o value with
      | none =>
        rw [evaluate_refused hnull hadmit]
        exact refl_of R value
      | some admitted =>
        rw [evaluate_admitted hnull hadmit]
        have hown : Obeys R fun value => Outcome.broken value (s.valueViolations value) := refl_of R
        have hstages := (hown.andThen o.stops
          (obeys_evaluateContent hchildren hallows listed)).andThen o.stops
            (obeys_evaluateCombinations hchildren listed)
        exact trans_of R (hallows.admitted (.refl s) hadmit) (hstages admitted)

end Schema

end DataSchema
