import DataSchema.Pattern.Reader
import DataSchema.Proofs.Acceptance
import DataSchema.Proofs.Checking
import DataSchema.Proofs.FirstError
import DataSchema.Proofs.PointerText
import DataSchema.Proofs.Rewriting

/-!
Where findings are.

A run *finds* what meets a condition when it leaves the value as it is and, if it comes to its end, every
finding meets the condition (`Run.Finds`). Under a policy that rewrites nothing, whatever a schema finds in a
value is located: the path of the finding leads to a part of the value, and a schema in the tree finds the
same violation in that part, at the part itself, by a run that comes to its end too (`Schema.finds_run`). For
reports this says that every issue is true of the place that its pointer names (`Validator.issue_located`).
-/

namespace DataSchema

namespace Run

variable {α β σ : Type} {x : Run α} {value : α} {p q : Finding → Prop}

/-- The run leaves the value as it is, and if it comes to its end, every finding meets the condition. -/
structure Finds (x : Run α) (value : α) (p : Finding → Prop) : Prop where
  value_eq : x.value = value
  forall_mem : x.breaksOff = false → ∀ f ∈ x.findings, p f

theorem finds_ok (value : α) : (ok value).Finds value p := ⟨rfl, fun _ => nofun⟩

/-- Whether the run breaks off makes no difference to what is found at the value itself. -/
theorem finds_here {vs : List Violation} {b : Bool} (h : ∀ v, p (.here v)) :
    Finds ⟨.broken value vs, b⟩ value p := by
  refine ⟨rfl, fun _ f hf => ?_⟩
  obtain ⟨v, -, rfl⟩ := List.mem_map.mp hf
  exact h v

theorem finds_broken (value : α) (vs : List Violation) (h : ∀ v, p (.here v)) :
    (broken value vs).Finds value p := finds_here h

/-- A run that passes has found nothing. -/
theorem finds_of_passes (hvalue : x.value = value) (h : x.passes = true) : x.Finds value p := by
  refine ⟨hvalue, fun _ f hf => ?_⟩
  rw [(Outcome.passes_iff _).mp h] at hf
  cases hf

namespace Finds

theorem imp (h : x.Finds value p) (hpq : ∀ f, p f → q f) : x.Finds value q :=
  ⟨h.value_eq, fun hend f hf => hpq f (h.forall_mem hend f hf)⟩

theorem map (f : α → β) (h : x.Finds value p) : (x.map f).Finds (f value) p :=
  ⟨congrArg f h.value_eq, h.forall_mem⟩

theorem under (key : String) (h : x.Finds value fun f => p (f.under key)) :
    (x.under key).Finds value p := by
  refine ⟨h.value_eq, fun hend f hf => ?_⟩
  obtain ⟨g, hg, rfl⟩ := List.mem_map.mp hf
  exact h.forall_mem hend g hg

theorem andThen (stop : Bool) {next : α → Run α} (h : x.Finds value p)
    (hn : (next value).Finds value p) : (x.andThen stop next).Finds value p := by
  rw [Run.andThen]
  split
  · exact h
  · rw [← h.value_eq] at hn ⊢
    refine ⟨hn.value_eq, fun hend f hf => ?_⟩
    obtain ⟨hxend, hnend⟩ := Bool.or_eq_false_iff.mp hend
    rcases List.mem_append.mp hf with hf | hf
    · exact h.forall_mem hxend f hf
    · exact hn.forall_mem hnend f hf

end Finds

theorem finds_if {c : Prop} [Decidable c] {y : Run α} (hx : c → x.Finds value p)
    (hy : ¬ c → y.Finds value p) : (if c then x else y).Finds value p := by
  split
  · next hc => exact hx hc
  · next hc => exact hy hc

theorem finds_cons (stop : Bool) {first : Run α} {value : α} {rest : List α}
    {others : List α → Run (List α)} (hx : first.Finds value p)
    (hrest : (others rest).Finds rest p) : (cons stop first rest others).Finds (value :: rest) p := by
  have hpair : ((first.map fun x => (x, rest)).andThen stop fun parts =>
      (others parts.2).map fun rest => (parts.1, rest)).Finds (value, rest) p :=
    (hx.map fun x => (x, rest)).andThen stop (hrest.map fun rest => (value, rest))
  exact hpair.map fun parts => parts.1 :: parts.2

theorem finds_inTurn (stop : Bool) {rule : σ → α → Run α} : ∀ {ss : List σ},
    (∀ s ∈ ss, (rule s value).Finds value p) → (inTurn stop rule ss value).Finds value p
  | [], _ => finds_ok value
  | s :: rest, h => by
    rw [List.forall_mem_cons] at h
    exact h.1.andThen stop (finds_inTurn stop h.2)

theorem finds_eachItem (stop : Bool) {rule : α → Run α} : ∀ {items : List α} (index : Nat),
    (∀ i y, items[i]? = some y → (rule y).Finds y fun f => p (f.under (toString (index + i)))) →
      (eachItem stop rule index items).Finds items p
  | [], _, _ => finds_ok []
  | y :: rest, index, h => by
    rw [eachItem_cons]
    refine finds_cons stop ((h 0 y rfl).under _) (finds_eachItem stop (index + 1) fun i z hz => ?_)
    have hnext := h (i + 1) z hz
    rwa [Nat.add_comm i 1, ← Nat.add_assoc] at hnext

theorem finds_eachMember (stop : Bool) {rule : String → α → Run α} :
    ∀ {members : List (String × α)},
      (∀ e ∈ members, (rule e.1 e.2).Finds e.2 fun f => p (f.under e.1)) →
        (eachMember stop rule members).Finds members p
  | [], _ => finds_ok []
  | (key, y) :: rest, h => by
    rw [List.forall_mem_cons] at h
    rw [eachMember_cons]
    exact finds_cons stop ((h.1.under key).map (Prod.mk key)) (finds_eachMember stop h.2)

theorem finds_atMember {key : String} {rule : α → Run α} : ∀ {members : List (String × α)},
    (∀ y, Entries.get? members key = some y → (rule y).Finds y fun f => p (f.under key)) →
      (atMember key rule members).Finds members p
  | [], _ => finds_ok []
  | (k, y) :: rest, h => by
    rw [atMember]
    simp only [Entries.get?_cons] at h
    by_cases hk : k = key
    · simp only [if_pos hk, Option.some.injEq, forall_eq'] at h ⊢
      exact (h.under key).map fun y => (k, y) :: rest
    · simp only [if_neg hk] at h ⊢
      exact (finds_atMember h).map ((k, y) :: ·)

end Run

namespace Schema

open Run

/-! ### Branches -/

section Branches

variable {value : Json} {p : Finding → Prop} {branches : List (Run Json)}
  (hhere : ∀ v, p (.here v)) (hbranches : ∀ b ∈ branches, b.Finds value p)

/-- Where no branch passes, `anyOf` comes to all of them. -/
theorem forall_not_breaksOff_of_fails : ∀ {branches : List (Run Json)},
    (∀ b ∈ branches, ¬ b.passes = true) → anyBreaksOff branches = false →
      ∀ b ∈ branches, b.breaksOff = false
  | [], _, _ => nofun
  | b :: rest, hfails, hend => by
    rw [List.forall_mem_cons] at hfails
    rw [anyBreaksOff, Bool.or_eq_false_iff, Bool.eq_false_iff.mpr hfails.1, Bool.not_false,
      Bool.true_and] at hend
    exact List.forall_mem_cons.mpr ⟨hend.1, forall_not_breaksOff_of_fails hfails.2 hend.2⟩

include hhere hbranches

/-- When no branch decides, what all of them found is kept. -/
theorem finds_unmatched (violation : Violation) {b : Bool}
    (hend : b = false → ∀ branch ∈ branches, branch.breaksOff = false) :
    Finds ⟨⟨value, (branches.map (·.toOutcome)).flatMap (·.findings) ++ [.here violation]⟩, b⟩
      value p := by
  refine ⟨rfl, fun hb f hf => ?_⟩
  rcases List.mem_append.mp hf with hf | hf
  · obtain ⟨x, hx, hf⟩ := List.mem_flatMap.mp hf
    obtain ⟨branch, hbranch, rfl⟩ := List.mem_map.mp hx
    exact (hbranches branch hbranch).forall_mem (hend hb branch hbranch) f hf
  · rw [List.mem_singleton.mp hf]
    exact hhere violation

theorem finds_anyOfRun : (anyOfRun value branches).Finds value p := by
  rw [anyOfRun, anyOfOutcome]
  split
  · next x hx =>
    -- the branch that decides has found nothing
    obtain ⟨branch, hbranch, rfl⟩ := List.mem_map.mp (List.mem_of_find?_eq_some hx)
    exact finds_of_passes (hbranches branch hbranch).value_eq (List.find?_some hx)
  · next hnone =>
    refine finds_unmatched hhere hbranches .anyOf (forall_not_breaksOff_of_fails fun b hb => ?_)
    exact List.find?_eq_none.mp hnone _ (List.mem_map_of_mem hb)

theorem finds_oneOfRun : (oneOfRun value branches).Finds value p := by
  rw [oneOfRun, oneOfOutcome]
  split
  · next x hx =>
    have hmem : x ∈ (branches.map (·.toOutcome)).filter (·.passes) := hx ▸ List.mem_singleton_self x
    obtain ⟨hsome, hpasses⟩ := List.mem_filter.mp hmem
    obtain ⟨branch, hbranch, rfl⟩ := List.mem_map.mp hsome
    exact finds_of_passes (hbranches branch hbranch).value_eq hpasses
  · exact finds_unmatched hhere hbranches .oneOf fun hb b hmem =>
      Bool.eq_false_iff.mpr (List.any_eq_false.mp hb b hmem)
  · exact finds_here hhere

end Branches

/-! ### The stages -/

variable [Pattern.Engine] {o : Options} {s t : Schema} {value x : Json} {f : Finding}

/-- A schema in the tree of the given one finds the same violation at the part of the value that the path
of the finding leads to, by a run that comes to its end. -/
def Locates (o : Options) (s : Schema) (value : Json) (f : Finding) : Prop :=
  ∃ t part, Within t s ∧ Pointer.resolve? value f.path = some part ∧
    (t.run o false part).breaksOff = false ∧ .here f.violation ∈ (t.run o false part).findings

theorem Locates.of_child (h : Locates o t value f) (ht : Child t s) : Locates o s value f := by
  obtain ⟨u, part, hu, hpart, hf⟩ := h
  exact ⟨u, part, .step ht hu, hpart, hf⟩

theorem Locates.of_part {key : String} (h : Locates o t x f) (ht : Child t s)
    (hx : Pointer.step? value key = some x) : Locates o s value (f.under key) := by
  obtain ⟨u, part, hu, hpart, hf⟩ := h
  refine ⟨u, part, .step ht hu, ?_, hf⟩
  rw [Finding.under, Pointer.resolve?, hx, Option.bind_some, hpart]

/-- The finding is of the value itself, or a schema further down locates it. -/
def Places (o : Options) (s : Schema) (value : Json) (f : Finding) : Prop :=
  f.path = [] ∨ Locates o s value f

theorem places_here (o : Options) (s : Schema) (value : Json) (v : Violation) :
    Places o s value (.here v) := .inl rfl

section Stages

variable {members : List (String × Json)}
  (h : ∀ t, Child t s → ∀ x : Json, x.WellKeyed → (t.run o false x).Finds x (Locates o t x))

include h

theorem finds_part {key : String} (ht : Child t s) (hx : Pointer.step? value key = some x)
    (hkeyed : x.WellKeyed) :
    (t.run o false x).Finds x fun f => Places o s value (f.under key) :=
  (h t ht x hkeyed).imp fun _ hf => .inr (hf.of_part ht hx)

theorem finds_branch (hvalue : value.WellKeyed) (ht : Child t s) :
    (t.run o false value).Finds value (Places o s value) :=
  (h t ht value hvalue).imp fun _ hf => .inr (hf.of_child ht)

theorem finds_runMembers (hvalue : (Json.object members).WellKeyed) :
    (s.runMembers o members).Finds members (Places o s (.object members)) := by
  have hstep : ∀ e ∈ members, Pointer.step? (.object members) e.1 = some e.2 :=
    fun e he => Entries.get?_of_mem hvalue.keys he
  have hdeclared : (s.runDeclared o members).Finds members (Places o s (.object members)) :=
    finds_inTurn o.stops fun e he => finds_atMember fun x hx =>
      finds_part h (.property he) hx (hvalue.members _ (Entries.mem_of_get? hx))
  have hpatterned : (s.runPatterned o members).Finds members
      (Places o s (.object members)) := by
    refine finds_eachMember o.stops fun e he => finds_if (fun _ => finds_ok e.2) fun _ => ?_
    refine finds_inTurn o.stops fun pattern hp => finds_if (fun _ => ?_) fun _ => finds_ok e.2
    exact finds_part h (.pattern hp) (hstep e he) (hvalue.members e he)
  have hextra : (s.runExtra o members).Finds members (Places o s (.object members)) := by
    rw [runExtra]
    split
    · next t ht =>
      refine finds_eachMember o.stops fun e he => finds_if (fun _ => ?_) fun _ => finds_ok e.2
      exact finds_part h (.additional ht) (hstep e he) (hvalue.members e he)
    · exact finds_ok members
  have hkeys := finds_broken members (s.keyViolations members) (places_here o s (.object members))
  exact hkeys.andThen _ (hdeclared.andThen _ (hpatterned.andThen _ hextra))

theorem finds_runElements {items : List Json} (hvalue : (Json.array items).WellKeyed) :
    (s.runElements o false items).Finds items (Places o s (.array items)) := by
  rw [runElements]
  split
  · next t ht =>
    refine finds_eachItem (o.stops || false) 0 fun i x hx => ?_
    rw [Nat.zero_add]
    refine finds_part h (.items ht) ?_ (hvalue.items x (List.mem_of_getElem? hx))
    rw [Pointer.step?_index, hx]
  · exact finds_ok items

theorem finds_runContent (hvalue : value.WellKeyed)
    (hprepare : ∀ members, value = .object members → s.prepare o members = members) :
    (s.runContent o false value).Finds value (Places o s value) := by
  cases value with
  | array items =>
    have hitems := finds_broken items (s.array.violations items) (places_here o s (.array items))
    exact (hitems.andThen _ (finds_runElements h hvalue)).map Json.array
  | object members =>
    rw [runContent, hprepare members rfl]
    exact (finds_runMembers h hvalue).map Json.object
  | string text => exact finds_here (places_here o s _)
  | number n => exact finds_broken _ _ (places_here o s _)
  | null => exact finds_ok _
  | bool b => exact finds_ok _

end Stages

/-! ### Combinations -/

theorem finds_runBranches {p : Finding → Prop} {combine : Json → List (Run Json) → Run Json}
    {branches : Option (List Schema)}
    (hcombine : ∀ {bs : List (Run Json)}, (∀ b ∈ bs, b.Finds value p) → (combine value bs).Finds value p)
    (h : ∀ ts, branches = some ts → ∀ t ∈ ts, (t.run o false value).Finds value p) :
    (runBranches combine o branches value).Finds value p := by
  rw [runBranches.eq_def]
  split
  · next t rest =>
    refine hcombine fun b hb => ?_
    obtain ⟨u, hu, rfl⟩ := List.mem_map.mp hb
    exact h _ rfl u hu
  · exact finds_ok value

theorem finds_runCombinations
    (h : ∀ t, Child t s → (t.run o false value).Finds value (Places o s value)) :
    (s.runCombinations o false value).Finds value (Places o s value) := by
  have hhere := places_here o s value
  have hall : (inTurn o.stops (run o false) (s.allOf.getD []) value).Finds value
      (Places o s value) := finds_inTurn o.stops fun t ht => h t (.ofAllOf ht)
  have hany := finds_runBranches (finds_anyOfRun hhere) fun ts hs t ht => h t (.anyOf hs ht)
  have hone := finds_runBranches (finds_oneOfRun hhere) fun ts hs t ht => h t (.oneOf hs ht)
  have hnot : (s.runNegated o value).Finds value (Places o s value) := by
    rw [runNegated]
    split
    · rw [notRun, notOutcome]
      split
      · exact finds_here hhere
      · exact ⟨rfl, fun _ => List.forall_mem_nil _⟩
    · exact finds_ok value
  exact hall.andThen _ (hany.andThen _ (hone.andThen _ hnot))

/-- Under a policy that rewrites nothing, every finding in a value is located. -/
theorem finds_run (o : Options) (s : Schema) : ∀ value : Json, value.WellKeyed →
    (s.run o.plain false value).Finds value (Locates o.plain s value) := by
  induction s using Schema.induction with
  | step s ih =>
    intro value hvalue
    have hplaces : (s.run o.plain false value).Finds value (Places o.plain s value) := by
      have hhere := places_here o.plain s value
      by_cases hnull : value = .null ∧ s.nullable = true
      · rw [run_null hnull]
        exact finds_ok value
      · cases hkind : s.admit? o.plain value with
        | none =>
          rw [run_refused hnull hkind]
          exact finds_broken value _ hhere
        | some admitted =>
          obtain rfl : admitted = value := by
            rcases (admit?_eq_some hkind).2 with heq | ⟨hcoerce, -⟩
            · exact heq
            · cases hcoerce
          rw [run_admitted hnull hkind]
          have hown := finds_broken admitted (s.valueViolations admitted) hhere
          have hcontent := finds_runContent ih hvalue fun members _ => prepare_plain o s members
          have hcombined := finds_runCombinations fun t ht => finds_branch ih hvalue ht
          exact (hown.andThen _ hcontent).andThen _ hcombined
    -- what is found at the value itself is located there, by the schema itself
    refine ⟨hplaces.value_eq, fun hend f hf => ?_⟩
    rcases hplaces.forall_mem hend f hf with hroot | hlocated
    · refine ⟨s, value, .refl s, by rw [hroot, Pointer.resolve?], hend, ?_⟩
      have hself : f = .here f.violation := by rw [Finding.here, ← hroot]
      rwa [← hself]
    · exact hlocated

end Schema

namespace Validator

/-- The pointer of every issue leads to a part of the value, and some schema in the tree, which compiles
under the same policy, reports the same of that part alone. -/
theorem issue_located [Pattern.Engine] {s : Schema} {o : Options} {v : Validator} {value : Json}
    {r : Report Json} {issue : Issue} (h : compile s (o.reporting true).plain = .ok v)
    (hvalue : value.WellKeyed) (hr : v.validate? value = some r) (hissue : issue ∈ r.issues) :
    ∃ t w part r', Schema.Within t s ∧ compile t (o.reporting true).plain = .ok w ∧
      Pointer.lookup? value issue.instancePath = some part ∧
      w.validate? part = some r' ∧ ⟨"", issue.keyword, issue.message⟩ ∈ r'.issues := by
  have hissues : ∀ {t w}, compile t (o.reporting true).plain = .ok w → ∀ part : Json,
      w.breaksOff part = (t.run (o.reporting true).plain false part).breaksOff ∧
        (w.validate part).issues =
          (t.run (o.reporting true).plain false part).findings.map Finding.toIssue := by
    intro t w hw part
    obtain ⟨rfl, hoptions⟩ := compile_eq_ok hw
    rw [breaksOff, validate, hoptions]
    exact ⟨rfl, rfl⟩
  obtain ⟨hend, rfl⟩ := validate?_eq_some.mp hr
  rw [(hissues h value).1] at hend
  rw [(hissues h value).2, List.mem_map] at hissue
  obtain ⟨f, hf, rfl⟩ := hissue
  obtain ⟨t, part, ht, hpart, hpartend, hlocated⟩ :=
    (s.finds_run (o.reporting true) value hvalue).forall_mem hend f hf
  have hcompiled := compile_of_check (Schema.check_of_within ht (check_of_compile h))
  have hthere := hissues hcompiled part
  refine ⟨t, _, part, _, ht, hcompiled, ?_,
    validate?_eq_some.mpr ⟨hthere.1.trans hpartend, rfl⟩, ?_⟩
  · exact (Pointer.lookup?_render value f.path).trans hpart
  · rw [hthere.2]
    exact List.mem_map_of_mem hlocated

/-- Rates by a key with a slash in it: a list of numbers or texts without a letter. -/
def rates : Schema where
  kind := some .object
  properties := [("eur/usd", Schema.arrayOf {
    anyOf := some [Schema.ofKind .number, { kind := some .string, text := { maxLength := some 0 } }] })]

/-- A rate that is neither: one issue of it comes from the second branch. -/
theorem issue_located_rates :
    compile rates (Options.reporting {} true).plain =
        .ok ⟨rates, (Options.reporting {} true).plain, rfl⟩ ∧
      (Json.object [("eur/usd", .array [.ofNat 1, .string "x"])]).WellKeyed ∧
      ∃ t w part r', Schema.Within t rates ∧ compile t (Options.reporting {} true).plain = .ok w ∧
        Pointer.lookup? (.object [("eur/usd", .array [.ofNat 1, .string "x"])]) "/eur~1usd/1" =
          some part ∧
        w.validate? part = some r' ∧
        ⟨"", .maxLength, "must NOT have more than 0 characters"⟩ ∈ r'.issues := by
  have hcompiled : compile rates (Options.reporting {} true).plain =
    .ok ⟨rates, (Options.reporting {} true).plain, rfl⟩ := rfl
  have hvalue : (Json.object [("eur/usd", .array [.ofNat 1, .string "x"])]).WellKeyed := by decide
  have hend : (Validator.mk rates (Options.reporting {} true).plain rfl).breaksOff
      (.object [("eur/usd", .array [.ofNat 1, .string "x"])]) = false := by decide
  have hissue : (⟨"/eur~1usd/1", .maxLength, "must NOT have more than 0 characters"⟩ : Issue) ∈
      ((Validator.mk rates (Options.reporting {} true).plain rfl).validate
        (.object [("eur/usd", .array [.ofNat 1, .string "x"])])).issues := by decide +kernel
  exact ⟨hcompiled, hvalue, issue_located hcompiled hvalue (validate?_eq_some.mpr ⟨hend, rfl⟩) hissue⟩

end Validator

end DataSchema
