import DataSchema.Proofs.Rewritten
import DataSchema.Schema.Property
import Mathlib.Logic.Function.Iterate

/-!
Properties that are replaced by wider ones.

A schema is widened by another that passes whatever it passes and leaves the same of it, as every schema
is by a union that has it as the first branch (`Schema.widens_either`). An object schema may have its
properties replaced by wider ones: what passed still passes and is left as it was, if the object is
prepared as before (`Schema.run_mapProperties`). Only a default can make a difference to that, since
it is looked for at the property itself, and no other place has it filled in.
-/

namespace DataSchema

namespace Run

variable {α σ τ : Type} {stop : Bool}

theorem inTurn_map (rule : σ → α → Run α) (f : τ → σ) : ∀ (ts : List τ) (value : α),
    inTurn stop rule (ts.map f) value = inTurn stop (fun t => rule (f t)) ts value
  | [], _ => rfl
  | t :: rest, value => by
    rw [List.map_cons, inTurn, inTurn, funext (inTurn_map rule f rest)]

/-- Rules that agree wherever the first ones succeed make the same run in turn, if that succeeds. -/
theorem inTurn_eq_of_succeeds {rule rule' : σ → α → Run α} : ∀ {ts : List σ} {value : α},
    (∀ t ∈ ts, ∀ x, (rule t x).Succeeds → rule' t x = rule t x) →
      (inTurn stop rule ts value).Succeeds → inTurn stop rule' ts value = inTurn stop rule ts value
  | [], _, _, _ => rfl
  | t :: rest, value, h, hs => by
    rw [List.forall_mem_cons] at h
    rw [inTurn, succeeds_andThen] at hs
    rw [inTurn, inTurn, h.1 value hs.1, hs.1.andThen, hs.1.andThen, inTurn_eq_of_succeeds h.2 hs.2]

theorem atMember_eq_of_succeeds {key : String} {rule rule' : α → Run α}
    (h : ∀ x, (rule x).Succeeds → rule' x = rule x) : ∀ {members : List (String × α)},
      (atMember key rule members).Succeeds → atMember key rule' members = atMember key rule members
  | [], _ => rfl
  | (k, x) :: rest, hs => by
    rw [atMember] at hs
    rw [atMember, atMember]
    by_cases hk : k = key
    · rw [if_pos hk, succeeds_map, succeeds_under] at hs
      rw [if_pos hk, if_pos hk, h x hs]
    · rw [if_neg hk, succeeds_map] at hs
      rw [if_neg hk, if_neg hk, atMember_eq_of_succeeds h hs]

end Run

namespace Schema

variable {o : Options} {listed : Bool} {s t u : Schema} {value : Json}
variable {f : String → Schema → Schema} {members : List (String × Json)}

section Widening

variable [Pattern.Engine]

/-- Whatever passes the first schema passes the second one, which leaves the same of it. -/
def Widens (o : Options) (s t : Schema) : Prop :=
  ∀ value, (s.run o false value).Succeeds → t.run o false value = s.run o false value

theorem Widens.refl (o : Options) (s : Schema) : Widens o s s := fun _ _ => rfl

theorem Widens.trans (hst : Widens o s t) (htu : Widens o t u) : Widens o s u := by
  intro value hs
  have ht := hst value hs
  rw [htu value (ht ▸ hs), ht]

/-- A change that widens every schema does so any number of times. -/
theorem widens_iterate {f : Schema → Schema} (hf : ∀ s, Widens o s (f s)) : ∀ (n : Nat) (s : Schema),
    Widens o s (f^[n] s)
  | 0, s => Widens.refl o s
  | n + 1, s => (hf s).trans (widens_iterate hf n (f s))

/-! ### Unions -/

/-- A union has no facets, so it asks nothing of the content. -/
theorem runContent_either (o : Options) (listed : Bool) (s t : Schema) (value : Json) :
    (either s t).runContent o listed value = .ok value := by
  have hkeys : ∀ members, (either s t).KeysHold members := fun members =>
    ⟨nofun, ⟨nofun, nofun⟩, nofun⟩
  have hhold : (either s t).ContentHold value := by
    cases value with
    | string text => exact ⟨nofun, nofun, nofun, nofun⟩
    | number n => exact ⟨nofun, nofun, nofun, nofun, nofun⟩
    | array items => exact ⟨nofun, nofun, nofun⟩
    | object members => exact hkeys members
    | null => trivial
    | bool b => trivial
  have hparts : ∀ u x, ¬ (either s t).Part value u x := by
    intro u x hpart
    cases hpart <;> contradiction
  have hjudges := judges_runContent true (P := fun _ _ => True) listed value
    (fun members _ => prepare_of_keysHold o (hkeys members)) fun u x hpart => absurd hpart (hparts u x)
  exact hjudges.eq_ok ⟨hhold, fun _ _ _ => trivial⟩

/-- The first branch that passes decides, and it works on the value as it is. -/
theorem widens_either (o : Options) (s t : Schema) : Widens o s (either s t) := by
  intro value hs
  have hnull : ¬ (value = .null ∧ (either s t).nullable = true) := fun h => nomatch h.2
  have hviolations : (either s t).valueViolations value = [] := rfl
  have hany : runBranches anyOfRun o (either s t).anyOf value = s.run o false value := by
    show anyOfRun value [s.run o false value, t.run o false value] = _
    rw [hs.eq_ok]
    rfl
  have hown : Run.broken value ((either s t).valueViolations value) = .ok value := by
    rw [hviolations]
    rfl
  rw [run_admitted hnull rfl, hown, Run.ok_andThen, runContent_either, Run.ok_andThen, runCombinations]
  show ((Run.ok value).andThen o.stops fun value =>
    (runBranches anyOfRun o (either s t).anyOf value).andThen o.stops fun value =>
      (Run.ok value).andThen o.stops Run.ok) = _
  rw [Run.ok_andThen, hany, hs.andThen, Run.ok_andThen, ← hs.eq_ok]

theorem widens_orArray (o : Options) (constraints : Option ArrayFacets) (s : Schema) :
    Widens o s (s.orArray constraints) := by
  rw [orArray]
  split
  · exact .refl o s
  · exact widens_either o s _

/-! ### Objects -/

/-- The schema with each property as the function makes it of the name and the property. -/
def mapProperties (s : Schema) (f : String → Schema → Schema) : Schema :=
  { s with properties := s.properties.map fun e => (e.1, f e.1 e.2) }

omit [Pattern.Engine] in
theorem declares_mapProperties (s : Schema) (f : String → Schema → Schema) :
    (s.mapProperties f).declares = s.declares := by
  funext key
  rw [declares, declares, Bool.eq_iff_iff, Entries.has_iff, Entries.has_iff, mapProperties,
    Entries.keys_map]

theorem isExtra_mapProperties (s : Schema) (f : String → Schema → Schema) :
    (s.mapProperties f).isExtra = s.isExtra := by
  funext key
  rw [isExtra, isExtra, declares_mapProperties]
  rfl

theorem keyViolations_mapProperties (s : Schema) (f : String → Schema → Schema) :
    (s.mapProperties f).keyViolations = s.keyViolations := by
  funext members
  rw [keyViolations, keyViolations, isExtra_mapProperties]
  rfl

theorem dropExtra_mapProperties (s : Schema) (f : String → Schema → Schema) :
    (s.mapProperties f).dropExtra = s.dropExtra := by
  funext members
  rw [dropExtra, dropExtra, isExtra_mapProperties]
  rfl

theorem runPatterned_mapProperties (o : Options) (s : Schema) (f : String → Schema → Schema) :
    runPatterned o (s.mapProperties f) = runPatterned o s := by
  funext members
  rw [runPatterned, runPatterned, declares_mapProperties]
  rfl

theorem runExtra_mapProperties (o : Options) (s : Schema) (f : String → Schema → Schema) :
    runExtra o (s.mapProperties f) = runExtra o s := by
  funext members
  rw [runExtra, runExtra, isExtra_mapProperties]
  rfl

theorem runDeclared_mapProperties (hf : ∀ e ∈ s.properties, Widens o e.2 (f e.1 e.2))
    (hs : (s.runDeclared o members).Succeeds) :
    (s.mapProperties f).runDeclared o members = s.runDeclared o members := by
  rw [runDeclared] at hs
  rw [runDeclared, runDeclared, mapProperties, Run.inTurn_map]
  exact Run.inTurn_eq_of_succeeds (fun e he _ => Run.atMember_eq_of_succeeds (hf e he)) hs

theorem runMembers_mapProperties (hf : ∀ e ∈ s.properties, Widens o e.2 (f e.1 e.2))
    (hs : (s.runMembers o members).Succeeds) :
    (s.mapProperties f).runMembers o members = s.runMembers o members := by
  rw [runMembers, Run.succeeds_andThen, Run.succeeds_andThen] at hs
  rw [runMembers, runMembers, keyViolations_mapProperties, hs.1.andThen, hs.1.andThen,
    runDeclared_mapProperties hf hs.2.1, runPatterned_mapProperties, runExtra_mapProperties]

/-- With wider properties a value that passes is left as it was, if an object is prepared as before. -/
theorem run_mapProperties (hf : ∀ e ∈ s.properties, Widens o e.2 (f e.1 e.2))
    (hprepare : ∀ members, value = .object members →
      (s.mapProperties f).prepare o members = s.prepare o members)
    (hs : (s.run o listed value).Succeeds) :
    (s.mapProperties f).run o listed value = s.run o listed value := by
  by_cases hnull : value = .null ∧ s.nullable = true
  · rw [run_null hnull]
    exact run_null hnull
  · cases hadmit : s.admit? o value with
    | none =>
      rw [run_refused hnull hadmit]
      exact run_refused hnull hadmit
    | some admitted =>
      have hrun : (s.mapProperties f).run o listed value = _ := run_admitted hnull hadmit
      rw [run_admitted hnull hadmit, Run.succeeds_andThen, Run.succeeds_andThen] at hs
      have hcontent : (s.mapProperties f).runContent o listed admitted =
          s.runContent o listed admitted := by
        cases admitted with
        | object members =>
          have hvalue : value = .object members := by
            rcases (admit?_eq_some hadmit).2 with heq | ⟨-, -, hscalar⟩
            · exact heq.symm
            · cases hscalar
          have hmembers : (s.runMembers o (s.prepare o members)).Succeeds := hs.1.2
          rw [runContent, runContent, hprepare members hvalue, runMembers_mapProperties hf hmembers]
        | _ => rfl
      rw [hrun, run_admitted hnull hadmit]
      show ((Run.broken admitted (s.valueViolations admitted)).andThen o.stops
        (runContent o listed (s.mapProperties f))).andThen o.stops (s.runCombinations o listed) = _
      have hvalue : (Run.broken admitted (s.valueViolations admitted)).value = admitted := rfl
      rw [hs.1.1.andThen, hs.1.1.andThen, hvalue, hcontent]

end Widening

/-! ### Defaults -/

/-- One step of filling in defaults: the members with the default of one property, if it is missing and
required. -/
def fill (s : Schema) (members : List (String × Json)) (e : String × Schema) : List (String × Json) :=
  match e.2.default with
  | some d => if s.isRequired e.1 && !Entries.has members e.1 then members ++ [(e.1, d)] else members
  | none => members

theorem fillDefaults_eq (s : Schema) (members : List (String × Json)) :
    s.fillDefaults members = s.properties.foldl s.fill members := rfl

theorem has_fill {e : String × Schema} {name : String} (h : Entries.has members name = true) :
    Entries.has (s.fill members e) name = true := by
  rw [fill]
  split
  · split
    · obtain ⟨x, hx⟩ := Option.isSome_iff_exists.mp h
      rw [Entries.has, Entries.get?_append, hx]
      rfl
    · exact h
  · exact h

theorem fill_of_has {e : String × Schema}
    (h : s.isRequired e.1 = true → Entries.has members e.1 = true) : s.fill members e = members := by
  rw [fill]
  split
  · rw [if_neg]
    simpa using h
  · rfl

/-- The property keeps its default, or has none any more and needs none: if it had one and is required,
the member is there. -/
def Spares (s : Schema) (f : String → Schema → Schema) (members : List (String × Json))
    (e : String × Schema) : Prop :=
  (f e.1 e.2).default = e.2.default ∨ (f e.1 e.2).default = none ∧
    (e.2.default.isSome = true → s.isRequired e.1 = true → Entries.has members e.1 = true)

theorem fill_mapped {e : String × Schema} (h : s.Spares f members e) :
    s.fill members (e.1, f e.1 e.2) = s.fill members e := by
  rcases h with hsame | ⟨hnone, hthere⟩
  · rw [fill, fill, hsame]
  · have hleft : s.fill members (e.1, f e.1 e.2) = members := by rw [fill, hnone]
    rw [hleft]
    cases hd : e.2.default with
    | none => rw [fill, hd]
    | some d => exact (fill_of_has (hthere (by rw [hd, Option.isSome_some]))).symm

theorem fillDefaults_mapProperties (h : ∀ e ∈ s.properties, s.Spares f members e) :
    (s.mapProperties f).fillDefaults members = s.fillDefaults members := by
  rw [fillDefaults_eq, fillDefaults_eq, mapProperties, List.foldl_map]
  show s.properties.foldl (fun members e => s.fill members (e.1, f e.1 e.2)) members = _
  generalize s.properties = ps at h
  induction ps generalizing members with
  | nil => rfl
  | cons e rest ih =>
    rw [List.forall_mem_cons] at h
    rw [List.foldl_cons, List.foldl_cons, fill_mapped h.1]
    -- what is there stays there while defaults are filled in
    refine ih fun e' he' => (h.2 e' he').imp_right fun hlost => ⟨hlost.1, fun hd hr => ?_⟩
    exact has_fill (hlost.2 hd hr)

theorem has_dropExtra [Pattern.Engine] {name : String} (hname : s.declares name = true) :
    Entries.has (s.dropExtra members) name = Entries.has members name := by
  have hextra : s.isExtra name = false := by rw [isExtra, hname]; rfl
  rw [Entries.has, get?_dropExtra, hextra, Bool.not_false, Bool.or_true, if_pos rfl, Entries.has]

/-- An object is prepared as before if no default is missed: none is filled in, or every member is there
for which one was. -/
theorem prepare_mapProperties [Pattern.Engine]
    (h : o.useDefaults = true → ∀ e ∈ s.properties, s.Spares f members e) :
    (s.mapProperties f).prepare o members = s.prepare o members := by
  rw [prepare, prepare, dropExtra_mapProperties]
  cases hd : o.useDefaults with
  | false => rfl
  | true =>
    refine fillDefaults_mapProperties fun e he => ?_
    cases o.removeAdditional with
    | false => exact h hd e he
    | true =>
      refine (h hd e he).imp_right fun hlost => ⟨hlost.1, fun hs hr => ?_⟩
      have hdeclares : s.declares e.1 = true :=
        (Entries.has_iff _ _).mpr (List.mem_map_of_mem (f := Prod.fst) he)
      exact (has_dropExtra hdeclares).trans (hlost.2 hs hr)

end Schema

end DataSchema
