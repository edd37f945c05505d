import DataSchema.Pattern.Reader
import DataSchema.Proofs.Reordering
import DataSchema.Proofs.Rewritten

/-!
The order of properties and of members does not count.

Two runs are compared that differ in the order in which properties are declared and in which members
stand. Their outcomes *match*: both pass or neither does, and if they pass they leave related values
(`Outcome.Matches`). What a failing run leaves, and in which order the findings come, may well depend on
the order, so nothing is said of that.
-/

namespace DataSchema

namespace Outcome

variable {α β γ δ σ τ : Type}

/-- Both outcomes pass or neither does, and outcomes that pass leave related values. -/
structure Matches (R : α → β → Prop) (x : Outcome α) (y : Outcome β) : Prop where
  passes_eq : x.passes = y.passes
  related : x.passes = true → R x.value y.value

variable {R : α → β → Prop} {x : Outcome α} {y : Outcome β} {a : α} {b : β}

theorem matches_ok (h : R a b) : Matches R (ok a) (ok b) := ⟨rfl, fun _ => h⟩

theorem matches_broken {vs ws : List Violation} (h : R a b) (hvs : vs = [] ↔ ws = []) :
    Matches R (broken a vs) (broken b ws) := by
  refine ⟨?_, fun _ => h⟩
  rw [Bool.eq_iff_iff, passes_broken, passes_broken, hvs]

theorem matches_of_fails (hx : ¬ x.passes = true) (hy : ¬ y.passes = true) : Matches R x y :=
  ⟨(Bool.eq_false_iff.mpr hx).trans (Bool.eq_false_iff.mpr hy).symm, fun h => absurd h hx⟩

theorem Matches.map {S : γ → δ → Prop} {f : α → γ} {g : β → δ} (h : Matches R x y)
    (hfg : ∀ a b, R a b → S (f a) (g b)) : Matches S (x.map f) (y.map g) :=
  ⟨h.passes_eq, fun hp => hfg _ _ (h.related hp)⟩

theorem Matches.andThen (stop : Bool) {f : α → Outcome α} {g : β → Outcome β} (h : Matches R x y)
    (hfg : ∀ a b, R a b → Matches R (f a) (g b)) :
    Matches R (x.andThen stop f) (y.andThen stop g) := by
  by_cases hx : x.passes = true
  · have hy : y.passes = true := h.passes_eq ▸ hx
    rw [andThen_of_passes hx, andThen_of_passes hy]
    exact hfg _ _ (h.related hx)
  · have hy : ¬ y.passes = true := h.passes_eq ▸ hx
    exact matches_of_fails (not_passes_andThen hx stop f) (not_passes_andThen hy stop g)

theorem matches_inTurn (stop : Bool) {run : σ → α → Outcome α} {run' : τ → β → Outcome β}
    {ss : List σ} {ts : List τ}
    (h : List.Forall₂ (fun s t => ∀ a b, R a b → Matches R (run s a) (run' t b)) ss ts) :
    ∀ {a b}, R a b → Matches R (inTurn stop run ss a) (inTurn stop run' ts b) := by
  induction h with
  | nil => exact fun hab => matches_ok hab
  | cons hst _ ih => exact fun hab => (hst _ _ hab).andThen stop fun _ _ => ih

theorem matches_eachItem (stop : Bool) {rule : α → Outcome α} {rule' : β → Outcome β}
    (hrule : ∀ a b, R a b → Matches R (rule a) (rule' b)) {xs : List α} {ys : List β}
    (h : List.Forall₂ R xs ys) (index : Nat) :
    Matches (List.Forall₂ R) (eachItem stop rule index xs) (eachItem stop rule' index ys) := by
  have hpasses : (eachItem stop rule index xs).passes = (eachItem stop rule' index ys).passes := by
    rw [Bool.eq_iff_iff, passes_eachItem, passes_eachItem]
    refine forall_mem_iff_of_forall₂ h fun a b hab => ?_
    rw [(hrule a b hab).passes_eq]
  refine ⟨hpasses, fun hx => ?_⟩
  have hy := hpasses ▸ hx
  rw [passes_eachItem] at hx hy
  rw [eachItem_of_passes index hx, eachItem_of_passes index hy]
  show List.Forall₂ R (xs.map _) (ys.map _)
  rw [List.forall₂_map_left_iff, List.forall₂_map_right_iff]
  exact forall₂_imp h fun a ha b hab => (hrule a b hab).related (hx a ha)

theorem Memberwise.matches {rule : String → α → Outcome α} {rule' : String → β → Outcome β}
    {ms : List (String × α)} {ns : List (String × β)} {x : Outcome (List (String × α))}
    {y : Outcome (List (String × β))} (hx : Memberwise rule ms x) (hy : Memberwise rule' ns y)
    (h : Entries.Rearranged R ms ns)
    (hrule : ∀ key a b, R a b → Matches R (rule key a) (rule' key b)) :
    Matches (Entries.Rearranged R) x y := by
  have hpasses : x.passes = y.passes := by
    rw [Bool.eq_iff_iff, hx.passes_iff, hy.passes_iff]
    refine h.forall_mem_iff (p := fun key a => (rule key a).passes = true)
      (q := fun key b => (rule' key b).passes = true) fun key a b _ _ hab => ?_
    rw [(hrule key a b hab).passes_eq]
  refine ⟨hpasses, fun hp => ?_⟩
  rw [hx.value_eq hp, hy.value_eq (hpasses ▸ hp)]
  refine h.map (f := fun key a => (rule key a).value) (g := fun key b => (rule' key b).value)
    fun key a b ha hab => (hrule key a b hab).related ?_
  exact hx.passes_iff.mp hp (key, a) ha

/-- The outcomes that pass correspond. -/
theorem matches_filter_passes {xs : List (Outcome α)} {ys : List (Outcome β)}
    (h : List.Forall₂ (Matches R) xs ys) :
    List.Forall₂ (Matches R) (xs.filter (·.passes)) (ys.filter (·.passes)) :=
  List.rel_filter (fun _ _ hxy => Bool.eq_iff_iff.mp hxy.passes_eq) h

end Outcome

namespace Schema

open Outcome

/-! ### Combinations -/

section Branches

variable {R : Json → Json → Prop} {x y : Json} {xs ys : List (Outcome Json)}

theorem matches_anyOfOutcome (h : List.Forall₂ (Matches R) xs ys) :
    Matches R (anyOfOutcome x xs) (anyOfOutcome y ys) := by
  have hpassing := matches_filter_passes h
  rw [anyOfOutcome, anyOfOutcome, ← List.head?_filter, ← List.head?_filter]
  generalize xs.filter (·.passes) = ps at hpassing ⊢
  generalize ys.filter (·.passes) = qs at hpassing ⊢
  cases hpassing with
  | nil => exact matches_of_fails (by simp [passes]) (by simp [passes])
  | cons hbranch _ => exact hbranch

theorem matches_oneOfOutcome (h : List.Forall₂ (Matches R) xs ys) :
    Matches R (oneOfOutcome x xs) (oneOfOutcome y ys) := by
  have hpassing := matches_filter_passes h
  rw [oneOfOutcome, oneOfOutcome]
  generalize xs.filter (·.passes) = ps at hpassing ⊢
  generalize ys.filter (·.passes) = qs at hpassing ⊢
  cases hpassing with
  | nil => exact matches_of_fails (by simp [passes]) (by simp [passes])
  | cons hbranch hrest =>
    cases hrest with
    | nil => exact hbranch
    | cons _ _ => exact matches_of_fails (by simp [passes_broken]) (by simp [passes_broken])

end Branches

variable [Pattern.Engine]

theorem matches_ofBranches {combine : Json → List (Outcome Json) → Outcome Json} {o : Options}
    {R : Json → Json → Prop} {P : Schema → Schema → Prop} {x y : Json}
    {branches branches' : Option (List Schema)} (hxy : R x y)
    (hcombine : ∀ {xs ys}, List.Forall₂ (Matches R) xs ys → Matches R (combine x xs) (combine y ys))
    (hP : ∀ c u, P c u → Matches R (c.evaluate o false x) (u.evaluate o false y))
    (h : Option.Rel (List.Forall₂ P) branches branches') :
    Matches R (ofBranches combine o branches x) (ofBranches combine o branches' y) := by
  rcases cases_of_rel h with ⟨rfl, rfl⟩ | ⟨cs, us, rfl, rfl, hall⟩
  · exact matches_ok hxy
  · cases hall with
    | nil => exact matches_ok hxy
    | @cons c u cs us hcu hrest =>
      refine hcombine ?_
      rw [List.forall₂_map_left_iff, List.forall₂_map_right_iff]
      exact (List.Forall₂.cons hcu hrest).imp hP

/-! ### Members -/

section Members

variable {o : Options} {s t : Schema} {R : Schema → Schema → Prop} {ms ns : List (String × Json)}

namespace Alike

/-- Corresponding schemas govern the members under one key. -/
theorem governing (h : Alike R s t) (key : String) :
    List.Forall₂ R (s.governing key) (t.governing key) := by
  rcases cases_of_rel (h.properties.rel key) with ⟨hs, ht⟩ | ⟨c, u, hs, ht, hcu⟩
  · rw [governing_of_undeclared (Schema.not_declares_of_get? hs),
      governing_of_undeclared (Schema.not_declares_of_get? ht), h.matchesKey]
    refine List.rel_append
      (Entries.forall₂_filter_keys h.patternProperties (Pattern.accepts · key)) ?_
    have hadditional := h.additional
    generalize s.additional = x at hadditional
    generalize t.additional = y at hadditional
    cases hadditional with
    | unspecified => exact .nil
    | allowed yes => exact .nil
    | schema hcu =>
      cases t.matchesKey key with
      | true => exact .nil
      | false => exact .cons hcu .nil
  · rw [governing_of_declared h.properties.left hs, governing_of_declared h.properties.right ht]
    exact .cons hcu .nil

omit [Pattern.Engine] in
theorem rel_filler? (h : Alike R s t) (hR : ∀ c u, R c u → c.default = u.default) (hs : s.WellKeyed)
    (key : String) : Option.Rel Json.Reordered (s.filler? key) (t.filler? key) := by
  rw [filler?, filler?, h.isRequired]
  split
  · rcases cases_of_rel (h.properties.rel key) with ⟨hc, hu⟩ | ⟨c, u, hc, hu, hcu⟩
    · rw [hc, hu]
      exact .none
    · rw [hc, hu, Option.bind_some, Option.bind_some, ← hR c u hcu]
      cases hd : c.default with
      | none => exact .none
      | some d =>
        have hchild := hs.child (.property (Entries.mem_of_get? hc))
        exact .some (.refl (hchild.default d hd))
  · exact .none

theorem prepare (h : Alike R s t) (hR : ∀ c u, R c u → c.default = u.default) (hs : s.WellKeyed)
    (o : Options) (hm : Entries.Rearranged Json.Reordered ms ns) :
    Entries.Rearranged Json.Reordered (s.prepare o ms) (t.prepare o ns) where
  left := nodup_keys_prepare o s hm.left
  right := nodup_keys_prepare o t hm.right
  rel key := by
    rw [get?_prepare o h.properties.left, get?_prepare o h.properties.right, h.isOpen, h.isExtra]
    refine rel_or ?_ ?_
    · split
      · exact hm.rel key
      · exact .none
    · split
      · exact h.rel_filler? hR hs key
      · exact .none

theorem keysHold_iff (h : Alike R s t) (hm : Entries.Rearranged Json.Reordered ms ns) :
    s.KeysHold ms ↔ t.KeysHold ns := by
  have hrequired : (∀ name ∈ s.requiredNames, Entries.has ms name = true) ↔
      ∀ name ∈ t.requiredNames, Entries.has ns name = true := by
    rw [h.requiredNames]
    exact forall₂_congr fun name _ => by rw [hm.has_eq]
  have hcounts : s.object.Hold ms ↔ t.object.Hold ns := by
    rw [h.same Schema.object fun _ => rfl]
    exact ObjectFacets.hold_congr hm.length_eq
  have hclosed : (s.isOpen = false → ∀ e ∈ ms, s.isExtra e.1 = false) ↔
      (t.isOpen = false → ∀ e ∈ ns, t.isExtra e.1 = false) := by
    rw [h.isOpen, h.isExtra]
    refine imp_congr_right fun _ => ?_
    exact hm.forall_mem_iff (p := fun key _ => t.isExtra key = false)
      (q := fun key _ => t.isExtra key = false) fun _ _ _ _ _ _ => Iff.rfl
  constructor
  · intro hs
    exact ⟨hrequired.mp hs.required, hcounts.mp hs.counts, hclosed.mp hs.closed⟩
  · intro ht
    exact ⟨hrequired.mpr ht.required, hcounts.mpr ht.counts, hclosed.mpr ht.closed⟩

end Alike

/-- Corresponding schemas make of reordered values outcomes that match. -/
def Corresponding (o : Options) (c u : Schema) : Prop :=
  c.default = u.default ∧ ∀ listed x y, Json.Reordered x y →
    Matches Json.Reordered (c.evaluate o listed x) (u.evaluate o listed y)

theorem matches_evaluateMembers (h : Alike (Corresponding o) s t)
    (hm : Entries.Rearranged Json.Reordered ms ns) :
    Matches (Entries.Rearranged Json.Reordered) (s.evaluateMembers o ms) (t.evaluateMembers o ns) := by
  by_cases hkeys : s.KeysHold ms
  · have hms := memberwise_evaluateMembers (o := o) hm.left hkeys
    have hns := memberwise_evaluateMembers (o := o) hm.right ((h.keysHold_iff hm).mp hkeys)
    refine hms.matches hns hm fun key x y hxy => matches_inTurn _ ?_ hxy
    exact (h.governing key).imp fun c u hcu x y => hcu.2 false x y
  · refine matches_of_fails (mt keysHold_of_passes hkeys) (mt keysHold_of_passes ?_)
    exact mt (h.keysHold_iff hm).mpr hkeys

end Members

/-! ### The stages -/

section Stages

variable {o : Options} {s t : Schema} {x y : Json}

omit [Pattern.Engine] in
theorem array_hold_iff (f : ArrayFacets) {xs ys : List Json} (h : List.Forall₂ Json.Reordered xs ys) :
    f.Hold xs ↔ f.Hold ys := by
  have hunique : (f.uniqueItems = true → xs.Pairwise fun x y => Json.equivalent x y = false) ↔
      (f.uniqueItems = true → ys.Pairwise fun x y => Json.equivalent x y = false) := by
    refine imp_congr_right fun _ => pairwise_iff_of_forall₂ h fun x y x' y' hxy hxy' => ?_
    rw [Json.equivalent_congr hxy hxy']
  constructor
  · rintro ⟨hmin, hmax, hu⟩
    rw [h.length_eq] at hmin hmax
    exact ⟨hmin, hmax, hunique.mp hu⟩
  · rintro ⟨hmin, hmax, hu⟩
    rw [← h.length_eq] at hmin hmax
    exact ⟨hmin, hmax, hunique.mpr hu⟩

theorem matches_evaluateElements (h : Alike (Corresponding o) s t) (listed : Bool)
    {xs ys : List Json} (hxy : List.Forall₂ Json.Reordered xs ys) :
    Matches (List.Forall₂ Json.Reordered) (s.evaluateElements o listed xs)
      (t.evaluateElements o listed ys) := by
  rw [evaluateElements, evaluateElements]
  rcases cases_of_rel h.items with ⟨hs, ht⟩ | ⟨c, u, hs, ht, hcu⟩
  · rw [hs, ht]
    exact matches_ok hxy
  · rw [hs, ht]
    exact matches_eachItem _ (hcu.2 false) hxy 0

theorem matches_evaluateContent (h : Alike (Corresponding o) s t) (hs : s.WellKeyed) (listed : Bool)
    (hxy : Json.Reordered x y) :
    Matches Json.Reordered (s.evaluateContent o listed x) (t.evaluateContent o listed y) := by
  have hfacets := h.same (fun u => (u.text, u.number, u.array)) fun _ => rfl
  simp only [Prod.mk.injEq] at hfacets
  obtain ⟨htext, hnumber, harray⟩ := hfacets
  cases hxy with
  | @scalar x hx =>
    cases x with
    | string text =>
      rw [evaluateContent, evaluateContent, htext]
      exact matches_broken (.scalar rfl) Iff.rfl
    | number n =>
      rw [evaluateContent, evaluateContent, hnumber]
      exact matches_broken (.scalar rfl) Iff.rfl
    | null => exact matches_ok (.scalar rfl)
    | bool b => exact matches_ok (.scalar rfl)
    | array xs => cases hx
    | object ms => cases hx
  | @array xs ys hitems =>
    rw [evaluateContent, evaluateContent, harray]
    have hown : Matches (List.Forall₂ Json.Reordered) (broken xs (t.array.violations xs))
        (broken ys (t.array.violations ys)) := by
      refine matches_broken hitems ?_
      rw [t.array.violations_eq_nil, t.array.violations_eq_nil, array_hold_iff _ hitems]
    exact (hown.andThen _ fun _ _ => matches_evaluateElements h listed).map fun _ _ => .array
  | object hleft hright hrel =>
    have hprepared := h.prepare (fun c u hcu => hcu.1) hs o ⟨hleft, hright, hrel⟩
    exact (matches_evaluateMembers h hprepared).map fun _ _ => .ofMembers

theorem matches_evaluateCombinations (h : Alike (Corresponding o) s t) (listed : Bool)
    (hxy : Json.Reordered x y) :
    Matches Json.Reordered (s.evaluateCombinations o listed x)
      (t.evaluateCombinations o listed y) := by
  have hall : List.Forall₂ (Corresponding o) (s.allOf.getD []) (t.allOf.getD []) := by
    rcases cases_of_rel h.allOf with ⟨hs, ht⟩ | ⟨cs, us, hs, ht, hcu⟩
    · rw [hs, ht]
      exact .nil
    · rw [hs, ht]
      exact hcu
  have hnot : ∀ x y, Json.Reordered x y →
      Matches Json.Reordered (s.evaluateNegated o x) (t.evaluateNegated o y) := by
    intro x y hxy
    rw [evaluateNegated, evaluateNegated]
    rcases cases_of_rel h.not with ⟨hs, ht⟩ | ⟨c, u, hs, ht, hcu⟩
    · rw [hs, ht]
      exact matches_ok hxy
    · rw [hs, ht]
      dsimp only
      rw [notOutcome, notOutcome, (hcu.2 false x y hxy).passes_eq]
      split
      · exact matches_broken hxy Iff.rfl
      · exact matches_ok hxy
  refine Matches.andThen _ (matches_inTurn _ (hall.imp fun c u hcu => hcu.2 listed) hxy)
    fun x y hxy => ?_
  refine Matches.andThen _ (matches_ofBranches hxy matches_anyOfOutcome
    (fun c u hcu => hcu.2 false x y hxy) h.anyOf) fun x y hxy => ?_
  exact Matches.andThen _ (matches_ofBranches hxy matches_oneOfOutcome
    (fun c u hcu => hcu.2 false x y hxy) h.oneOf) hnot

omit [Pattern.Engine] in
theorem rel_admit? {R : Schema → Schema → Prop} (h : Alike R s t) (o : Options)
    (hxy : Json.Reordered x y) : Option.Rel Json.Reordered (s.admit? o x) (t.admit? o y) := by
  rw [admit?, admit?, h.same Schema.kind fun _ => rfl]
  cases t.kind with
  | none => exact .some hxy
  | some kind =>
    dsimp only
    rw [hxy.hasKind_eq]
    split
    · exact .some hxy
    · split
      · exact hxy.rel_coerce? kind
      · exact .none

end Stages

/-- Reordered schemas make of reordered values outcomes that match. -/
theorem matches_evaluate (o : Options) (s : Schema) : ∀ {t : Schema}, s.WellKeyed → s.Reordered t →
    ∀ listed x y, Json.Reordered x y →
      Matches Json.Reordered (s.evaluate o listed x) (t.evaluate o listed y) := by
  induction s using Schema.induction with
  | step s ih =>
    intro t hs hst listed x y hxy
    have h : Alike (Corresponding o) s t := hst.alike.imp fun c hc u hcu =>
      ⟨hcu.default, ih c hc (hs.child hc) hcu⟩
    have hnull : (x = .null ∧ s.nullable = true) ↔ (y = .null ∧ t.nullable = true) := by
      rw [hxy.isNull_iff, h.same Schema.nullable fun _ => rfl]
    by_cases hx : x = .null ∧ s.nullable = true
    · rw [evaluate_null hx, evaluate_null (hnull.mp hx)]
      exact matches_ok hxy
    · have hy := mt hnull.mpr hx
      rcases cases_of_rel (rel_admit? h o hxy) with ⟨hxa, hya⟩ | ⟨a, b, hxa, hya, hab⟩
      · rw [evaluate_refused hx hxa, evaluate_refused hy hya]
        refine matches_broken hxy ?_
        rw [h.same Schema.kindViolations fun _ => rfl]
      · rw [evaluate_admitted hx hxa, evaluate_admitted hy hya]
        have hown : Matches Json.Reordered (broken a (s.valueViolations a))
            (broken b (t.valueViolations b)) := by
          refine matches_broken hab ?_
          rw [h.same (Schema.valueViolations · a) fun _ => rfl, valueViolations_eq_nil,
            valueViolations_eq_nil]
          simp only [fun c => Json.equivalent_right c hab]
        refine (hown.andThen _ fun a b hab => ?_).andThen _ fun a b hab => ?_
        · exact matches_evaluateContent h hs listed hab
        · exact matches_evaluateCombinations h listed hab

end Schema

namespace Validator

/-- Where both runs come to their end, the order in which properties are declared and in which members
stand makes no difference: not to whether a schema compiles, not to whether a value passes, and to what is
handed back then only in the order of its members. Both runs do come to their end if the schema asks for no
time. -/
theorem report_reordered [Pattern.Engine] {s t : Schema} {x y : Json} (o : Options) (hs : s.WellKeyed)
    (hst : s.Reordered t) (hxy : x.Reordered y) :
    ((∃ v, compile s o = .ok v) ↔ ∃ w, compile t o = .ok w) ∧
      (∀ v w r q, compile s o = .ok v → compile t o = .ok w →
        v.validate? x = some r → w.validate? y = some q →
          (r.issues = [] ↔ q.issues = []) ∧ (r.issues = [] → r.value.Reordered q.value)) ∧
      (s.Timeless → ∀ v w, compile s o = .ok v → compile t o = .ok w →
        (∃ r, v.validate? x = some r) ∧ ∃ q, w.validate? y = some q) := by
  have hchecked := Schema.check_reordered o.strict s hst
  refine ⟨?_, ?_, ?_⟩
  · constructor
    · rintro ⟨v, hv⟩
      exact ⟨_, compile_of_check (hchecked.mp (check_of_compile hv))⟩
    · rintro ⟨w, hw⟩
      exact ⟨_, compile_of_check (hchecked.mpr (check_of_compile hw))⟩
  · intro v w r q hv hw hr hq
    obtain ⟨rfl, hvo⟩ := compile_eq_ok hv
    obtain ⟨rfl, hwo⟩ := compile_eq_ok hw
    obtain ⟨-, rfl⟩ := validate?_eq_some.mp hr
    obtain ⟨-, rfl⟩ := validate?_eq_some.mp hq
    have hmatches := v.schema.matches_evaluate o hs hst false x y hxy
    rw [validate, validate, hvo, hwo, Report.issues_ofOutcome_eq_nil, Report.issues_ofOutcome_eq_nil]
    exact ⟨by rw [hmatches.passes_eq], hmatches.related⟩
  · intro htimeless v w hv hw
    have htimeless' := (Schema.timeless_reordered s hst).mp htimeless
    obtain ⟨rfl, -⟩ := compile_eq_ok hv
    obtain ⟨rfl, -⟩ := compile_eq_ok hw
    exact ⟨exists_report htimeless x, exists_report htimeless' y⟩

/-- A point, whose second coordinate need not be given. -/
def point : Schema where
  kind := some .object
  properties := [("x", Schema.ofKind .number),
    ("y", { Schema.ofKind .string with default := some (.string "origin") })]
  required := some ["x", "y"]

/-- A point with its coordinates declared the other way round. -/
def turnedPoint : Schema := point.withProperties point.properties.reverse

theorem report_reordered_points :
    ∃ v w r q, compile { anyOf := some [point] } { coerceTypes := true } = .ok v ∧
      compile { anyOf := some [turnedPoint] } { coerceTypes := true } = .ok w ∧
      v.validate? (.object [("x", .string "1"), ("z", .null)]) = some r ∧
      w.validate? (.object [("z", .null), ("x", .string "1")]) = some q ∧
      q.issues = [] ∧ r.value.Reordered q.value := by
  have hpoint : point.WellKeyed := Schema.of_allWithin 2 (by decide)
  have hturned : point.Reordered turnedPoint :=
    .of_perm hpoint (List.reverse_perm _).symm
  have hbranch : Schema.Reordered { anyOf := some [point] } { anyOf := some [turnedPoint] } :=
    .intro rfl .nil .nil (fun _ => .none) .nil .unspecified .none .none .none
      (.some (.cons hturned .nil)) .none
  have hvalue : Json.Reordered (.object [("x", .string "1"), ("z", .null)])
      (.object [("z", .null), ("x", .string "1")]) :=
    .of_perm (List.reverse_perm _).symm (by decide)
  have hkeyed : Schema.WellKeyed { anyOf := some [point] } := Schema.of_allWithin 3 (by decide)
  obtain ⟨-, hboth, -⟩ := report_reordered { coerceTypes := true } hkeyed hbranch hvalue
  obtain ⟨hissues, hleft⟩ := hboth _ _ _ _ rfl rfl rfl rfl
  exact ⟨_, _, _, _, rfl, rfl, rfl, rfl, hissues.mp (by decide +kernel), hleft (by decide +kernel)⟩

/-- A count with a time, in the one order and in the other. -/
def counted : Schema where
  properties := [("count", Schema.ofKind .integer), ("time", { text := { format := some "time" } })]

def turnedCounted : Schema := counted.withProperties counted.properties.reverse

/-- When the first error ends a run, the count is looked at first or the time, at which the run breaks off. -/
theorem passes_not_reordered :
    ¬ ∀ (o : Options) (s t : Schema) (v w : Validator) (x : Json), s.WellKeyed → s.Reordered t →
      compile s o = .ok v → compile t o = .ok w → (v.Passes x ↔ w.Passes x) := by
  intro hall
  have hcounted : counted.WellKeyed := Schema.of_allWithin 2 (by decide)
  have hturned : counted.Reordered turnedCounted := .of_perm hcounted (List.reverse_perm _).symm
  have hbranches : Schema.Reordered { anyOf := some [counted, {}] }
      { anyOf := some [turnedCounted, {}] } :=
    .intro rfl .nil .nil (fun _ => .none) .nil .unspecified .none .none .none
      (.some (.cons hturned (.cons (.refl _ (Schema.of_allWithin 1 (by decide))) .nil))) .none
  have hiff := hall { allErrors := false } _ _ _ _
    (.object [("count", .string "x"), ("time", .string Format.arabicTime)])
    (Schema.of_allWithin 3 (by decide)) hbranches rfl rfl
  have hpasses := hiff.mp (passes_iff.mpr ⟨by decide, by decide⟩)
  exact absurd (passes_iff.mp hpasses).1 (by decide)

end Validator

end DataSchema
