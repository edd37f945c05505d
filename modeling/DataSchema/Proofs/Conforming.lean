import DataSchema.Pattern.Reader
import DataSchema.Proofs.Acceptance
import DataSchema.Proofs.Rewriting

/-!
Values that conform are left alone.

A value that a schema accepts as it is needs no conversion, no removal and no default, so a policy that
rewrites has nothing to do at the schemas that govern the value and its parts. Only a choice among
branches can go another way: a branch that refuses the value as it is may accept what conversion, removal
or defaults make of it. `Schema.Settled` says that this does not happen, and then evaluation under the
policy finds nothing and changes nothing (`evaluate_of_settled`). Where there is nothing to choose, every
value is settled (`settled_of_choiceFree`).
-/

namespace DataSchema

namespace Schema

/-! ### Settled choices -/

variable [Pattern.Engine]

/-- Wherever the value or a part of it comes to a choice, the policy lets no branch in that refuses the
value as it is: no further branch of `oneOf`, not the schema under `not`, and no branch of `anyOf` as the
first one to pass, unless that branch leaves the value as it is. -/
def Settled (o : Options) (s : Schema) (value : Json) : Prop :=
  (value = .null ∧ s.nullable = true) ∨
    ((∀ t x, (_ : s.Part value t x) → Settled o t x) ∧
      (∀ ts, (_ : s.allOf = some ts) → ∀ t, (_ : t ∈ ts) → Settled o t value) ∧
      (∀ ts, (_ : s.anyOf = some ts) → ∀ before t after, (_ : ts = before ++ t :: after) →
        (∀ u ∈ before, ¬ (u.evaluate o false value).passes = true) →
          (t.Accepts value → Settled o t value) ∧
            (¬ t.Accepts value → (t.evaluate o false value).passes = true →
              (t.evaluate o false value).value = value)) ∧
      (∀ ts, (_ : s.oneOf = some ts) → ∀ t, (_ : t ∈ ts) → (t.Accepts value → Settled o t value) ∧
        (¬ t.Accepts value → ¬ (t.evaluate o false value).passes = true)) ∧
      ∀ t, s.not = some t → ¬ t.Accepts value → ¬ (t.evaluate o false value).passes = true)
termination_by sizeOf s
decreasing_by
  · exact (Part.child ‹_›).sizeOf_lt
  · exact (Child.allOf ‹_› ‹_›).sizeOf_lt
  · exact (Child.anyOf ‹_› (‹ts = _› ▸ List.mem_append_right before List.mem_cons_self)).sizeOf_lt
  · exact (Child.oneOf ‹_› ‹_›).sizeOf_lt

theorem settled_of_choiceFree (o : Options) (s : Schema) : ∀ value : Json,
    s.ChoiceFree → s.Settled o value := by
  induction s using Schema.induction with
  | step s ih =>
    intro value hfree
    obtain ⟨hany, hone, hnot⟩ := hfree s (.refl s)
    rw [Settled]
    right
    refine ⟨fun t x hpart => ih t hpart.child x (hfree.child hpart.child),
      fun ts hs t ht => ih t (.allOf hs ht) value (hfree.child (.allOf hs ht)), ?_, ?_, ?_⟩
    · rw [hany]; nofun
    · rw [hone]; nofun
    · rw [hnot]; nofun

/-! ### Nothing to rewrite -/

theorem dropExtra_of_keysHold {s : Schema} {members : List (String × Json)}
    (h : s.KeysHold members) : s.dropExtra members = members := by
  rw [dropExtra]
  split
  · rfl
  · next hopen =>
    rw [List.filter_eq_self]
    intro e he
    rw [h.closed (Bool.eq_false_iff.mpr hopen) e he, Bool.not_false]

theorem prepare_of_keysHold (o : Options) {s : Schema} {members : List (String × Json)}
    (h : s.KeysHold members) : s.prepare o members = members := by
  rw [prepare, dropExtra_of_keysHold h, ite_self, fillDefaults_of_required h.required, ite_self]

/-! ### Choices -/

section Branches

variable {run : Schema → Outcome Json} {value : Json} {ts : List Schema}

/-- The first branch that passes leaves the value alone if every branch up to it does. -/
theorem anyOfOutcome_eq_ok (haccepts : ∃ t ∈ ts, t.Accepts value)
    (h : ∀ before t after, ts = before ++ t :: after → (∀ u ∈ before, ¬ (run u).passes = true) →
      (t.Accepts value → run t = .ok value) ∧
        (¬ t.Accepts value → (run t).passes = true → (run t).value = value)) :
    anyOfOutcome value (ts.map run) = .ok value := by
  rw [anyOfOutcome, List.find?_map]
  cases hf : ts.find? ((·.passes) ∘ run) with
  | none =>
    -- the branch that accepts the value would pass, as every branch before it fails
    have hfails : ∀ u ∈ ts, ¬ (run u).passes = true := List.find?_eq_none.mp hf
    obtain ⟨t, ht, haccept⟩ := haccepts
    obtain ⟨before, after, rfl⟩ := List.append_of_mem ht
    have hbefore := h before t after rfl fun u hu => hfails u (List.mem_append_left _ hu)
    exact absurd (congrArg Outcome.passes (hbefore.1 haccept)) (hfails t ht)
  | some t =>
    obtain ⟨ht, before, after, rfl, hbefore⟩ := List.find?_eq_some_iff_append.mp hf
    obtain ⟨haccept, hrefuse⟩ := h before t after rfl (by simpa using hbefore)
    rw [Option.map_some]
    by_cases hta : t.Accepts value
    · exact haccept hta
    · exact (Outcome.eq_ok_of_passes ht).trans (by rw [hrefuse hta ht])

omit [Pattern.Engine] in
theorem oneOfOutcome_eq_ok {before after : List Schema} {t : Schema} (ht : run t = .ok value)
    (h : ∀ u ∈ before ++ after, ¬ (run u).passes = true) :
    oneOfOutcome value ((before ++ t :: after).map run) = .ok value := by
  have hfilter : (before ++ t :: after).filter ((·.passes) ∘ run) = [t] :=
    filter_eq_singleton_iff.mpr ⟨before, after, rfl, by simp [ht], h⟩
  rw [oneOfOutcome, List.filter_map, hfilter, List.map_cons, List.map_nil, ht]

theorem inTurn_allOf_eq_ok {o : Options} {listed : Bool} {branches : Option (List Schema)}
    (h : ∀ ts, branches = some ts → ∀ t ∈ ts, t.evaluate o listed value = .ok value) :
    Outcome.inTurn o.stops (evaluate o listed) (branches.getD []) value = .ok value := by
  cases branches with
  | none => rfl
  | some ts =>
    have hall := Outcome.judges_inTurn o.stops fun t ht => Outcome.judges_of_eq_ok (h ts rfl t ht)
    exact hall.eq_ok fun _ _ => trivial

theorem ofBranches_eq_ok {combine : Json → List (Outcome Json) → Outcome Json} {o : Options}
    {branches : Option (List Schema)}
    (h : ∀ ts, branches = some ts → ts ≠ [] →
      combine value (ts.map fun t => t.evaluate o false value) = .ok value) :
    ofBranches combine o branches value = .ok value := by
  rw [ofBranches.eq_def]
  split
  · next t rest => exact h (t :: rest) rfl (List.cons_ne_nil t rest)
  · rfl

end Branches

/-! ### Conforming values -/

/-- A value that the schema accepts as it is, and whose choices are settled, passes under the policy and
stays as it is. -/
theorem evaluate_of_settled (o : Options) (s : Schema) : ∀ (listed : Bool) (value : Json),
    s.Accepts value → s.Settled o value → s.evaluate o listed value = .ok value := by
  induction s using Schema.induction with
  | step s ih =>
    intro listed value haccepts hsettled
    rw [Accepts] at haccepts
    rw [Settled] at hsettled
    by_cases hnull : value = .null ∧ s.nullable = true
    · rw [evaluate_null hnull]
    · obtain ⟨hown, hparts, hall, hany, hone, hnot⟩ := haccepts.resolve_left hnull
      obtain ⟨sparts, sall, sany, sone, snot⟩ := hsettled.resolve_left hnull
      -- every stage hands the value on as it is, so acceptance is there for the next one
      have hvalue : s.valueViolations value = [] :=
        (s.valueViolations_eq_nil value).mpr ⟨hown.const, hown.enum⟩
      have hcontent : s.evaluateContent o listed value = .ok value := by
        refine (judges_evaluateContent (P := fun _ _ => True) listed value ?_ ?_).eq_ok
          ⟨hown.content, fun _ _ _ => trivial⟩
        · rintro members rfl
          exact prepare_of_keysHold o hown.content
        · intro t x hpart
          exact Outcome.judges_of_eq_ok
            (ih t hpart.child false x (hparts t x hpart) (sparts t x hpart))
      have hallOf := inTurn_allOf_eq_ok fun ts hs t ht =>
        ih t (.allOf hs ht) listed value (hall ts hs t ht) (sall ts hs t ht)
      have hanyOf : ofBranches anyOfOutcome o s.anyOf value = .ok value := by
        refine ofBranches_eq_ok fun ts hs hne => ?_
        obtain ⟨t, ht, haccepts⟩ := hany ts hs hne
        refine anyOfOutcome_eq_ok ⟨t, ht, haccepts⟩ ?_
        rintro before t after rfl hbefore
        obtain ⟨hsettled, hothers⟩ := sany _ hs before t after rfl hbefore
        refine ⟨fun haccepts => ?_, hothers⟩
        exact ih t (.anyOf hs (by simp)) false value haccepts (hsettled haccepts)
      have honeOf : ofBranches oneOfOutcome o s.oneOf value = .ok value := by
        refine ofBranches_eq_ok fun ts hs hne => ?_
        obtain ⟨before, t, after, rfl, haccepts, hothers⟩ := hone ts hs hne
        have hsettled := (sone _ hs t (by simp)).1 haccepts
        refine oneOfOutcome_eq_ok (ih t (.oneOf hs (by simp)) false value haccepts hsettled) ?_
        exact fun u hu => (sone _ hs u (mem_of_others hu)).2 (hothers u hu)
      have hnegated : s.evaluateNegated o value = .ok value := by
        rw [evaluateNegated]
        cases hs : s.not with
        | none => rfl
        | some t => exact if_neg (snot t hs (hnot t hs))
      rw [evaluate_admitted hnull (admit?_of_kind o hown.kind), hvalue, Outcome.broken_nil,
        Outcome.ok_andThen, hcontent, Outcome.ok_andThen, evaluateCombinations, hallOf,
        Outcome.ok_andThen, hanyOf, Outcome.ok_andThen, honeOf, Outcome.ok_andThen, hnegated]

end Schema

namespace Validator

/-- A value that passes without any rewriting passes under the policy too, and stays as it is, if the run
under the policy comes to its end. -/
def Keeps [Pattern.Engine] (s : Schema) (o : Options) (value : Json) : Prop :=
  ∀ plain, compile s o.plain = .ok plain → plain.Passes value →
    ∃ v, compile s o = .ok v ∧
      (∀ r, v.validate? value = some r → r.issues = [] ∧ r.value = value) ∧
      (s.Timeless → ∃ r, v.validate? value = some r)

/-- A value whose choices are settled is kept. -/
theorem keeps_of_settled [Pattern.Engine] {s : Schema} {o : Options} {value : Json}
    (hsettled : s.Settled o value) :
    Keeps s o value := by
  intro plain h hpasses
  have haccepts := (validate_plain_iff h value).1.mp (passes_iff.mp hpasses).2
  have hchecked := check_of_compile h
  refine ⟨_, compile_of_check (o := o) hchecked, fun r hr => ?_, fun h => exists_report h value⟩
  obtain ⟨-, rfl⟩ := validate?_eq_some.mp hr
  rw [validate, Schema.evaluate_of_settled o s false value haccepts hsettled]
  exact ⟨(Report.issues_ofOutcome_eq_nil o _).mpr rfl, rfl⟩

/-- A text or a truth value, but not what could be both. -/
def textOrTruth : Schema := { oneOf := some [Schema.ofKind .string, Schema.ofKind .boolean] }

theorem keeps_textOrTruth :
    textOrTruth.Settled { coerceTypes := true } (.string "yes") ∧
      ∃ v r, compile textOrTruth { coerceTypes := true } = .ok v ∧
        v.validate? (.string "yes") = some r ∧ r.issues = [] ∧ r.value = .string "yes" := by
  have hsettled : textOrTruth.Settled { coerceTypes := true } (.string "yes") := by
    rw [Schema.Settled]
    refine .inr ⟨nofun, nofun, nofun, ?_, nofun⟩
    rintro ts ⟨rfl⟩ t ht
    have hkind : t = Schema.ofKind .string ∨ t = Schema.ofKind .boolean := by simpa using ht
    rcases hkind with rfl | rfl
    · have htext := (Schema.judges_evaluate {} (Schema.ofKind .string) false (.string "yes")).passes_iff
      exact ⟨fun _ => Schema.settled_of_choiceFree _ _ _ (Schema.choiceFree_ofKind _),
        absurd (htext.mp (by decide))⟩
    · exact ⟨fun _ => Schema.settled_of_choiceFree _ _ _ (Schema.choiceFree_ofKind _),
        fun _ => by decide⟩
  have hplain : (Validator.mk textOrTruth (Options.plain { coerceTypes := true }) rfl).Passes
      (.string "yes") := passes_iff.mpr ⟨by decide, by decide⟩
  obtain ⟨v, hcompiled, hkept, -⟩ := keeps_of_settled hsettled _ rfl hplain
  cases hcompiled
  exact ⟨hsettled, _, _, rfl, rfl, hkept _ rfl⟩

/-- The text `true` is no truth value, but conversion makes it one: then two branches of `oneOf` take it,
`anyOf` turns it into the truth value, and `not` refuses it. -/
theorem conversion_not_keeps :
    ¬ Keeps textOrTruth { coerceTypes := true } (.string "true") ∧
    ¬ Keeps { anyOf := some [Schema.ofKind .boolean, Schema.ofKind .string] } { coerceTypes := true }
      (.string "true") ∧
    ¬ Keeps { not := some (Schema.ofKind .boolean) } { coerceTypes := true } (.string "true") := by
  refine ⟨fun h => ?_, fun h => ?_, fun h => ?_⟩
  all_goals
    obtain ⟨⟨s, o, checked⟩, hcompiled, hkept, -⟩ := h _ rfl (passes_iff.mpr ⟨by decide, by decide⟩)
    obtain ⟨rfl, rfl⟩ := compile_eq_ok hcompiled
    obtain ⟨hissues, hvalue⟩ := hkept _ rfl
  · cases hissues
  · cases hvalue
  · cases hissues

end Validator

end DataSchema
