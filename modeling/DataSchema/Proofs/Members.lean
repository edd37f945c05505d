import DataSchema.Proofs.Evaluation
import DataSchema.Proofs.Facets

/-!
Objects, member by member.

The evaluator goes over the members of an object three times: by the declarations, by the patterns, and
for what is left. In an object that has no key twice this comes to going over the members once, and
running on each the schemas that govern its key, one after another (`Schema.governing`,
`memberwise_evaluateMembers`). What runs on a member does not look at the other members.
-/

namespace DataSchema

namespace Outcome

variable {α β σ : Type}

/-! ### Runs in turn -/

theorem andThen_assoc (x : Outcome α) (stop : Bool) (f g : α → Outcome α) :
    (x.andThen stop f).andThen stop g = x.andThen stop fun value => (f value).andThen stop g := by
  by_cases h : x.passes = true
  · rw [andThen_of_passes h, andThen_of_passes h]
  · cases stop with
    | true =>
      -- a run that is over stays over
      have hover : ∀ next : α → Outcome α, x.andThen true next = x := fun next =>
        if_pos (by rw [Bool.true_and, Bool.not_eq_true', Bool.eq_false_iff.mpr h])
      rw [hover, hover, hover]
    | false => simp [andThen, List.append_assoc]

@[simp] theorem inTurn_nil (stop : Bool) (run : σ → α → Outcome α) : inTurn stop run [] = ok := rfl

theorem inTurn_singleton (stop : Bool) (run : σ → α → Outcome α) (t : σ) :
    inTurn stop run [t] = run t := by
  funext value
  rw [inTurn, inTurn_nil, andThen_ok]

theorem inTurn_append (stop : Bool) (run : σ → α → Outcome α) (ts : List σ) : ∀ ss : List σ,
    inTurn stop run (ss ++ ts) =
      fun value => (inTurn stop run ss value).andThen stop (inTurn stop run ts)
  | [] => funext fun _ => (ok_andThen _ _ _).symm
  | s :: rest => by
    funext value
    rw [List.cons_append, inTurn, inTurn, andThen_assoc, inTurn_append stop run ts rest]

theorem inTurn_map {τ : Type} (stop : Bool) (run : σ → α → Outcome α) (f : τ → σ) :
    ∀ ts : List τ, inTurn stop run (ts.map f) = inTurn stop (fun t => run (f t)) ts
  | [] => rfl
  | t :: rest => by
    funext value
    rw [List.map_cons, inTurn, inTurn, inTurn_map stop run f rest]

/-- A rule that only some of the things have runs for these in turn. -/
theorem inTurn_filter (stop : Bool) (run : σ → α → Outcome α) (p : σ → Bool) : ∀ ts : List σ,
    inTurn stop (fun t value => if p t then run t value else ok value) ts =
      inTurn stop run (ts.filter p)
  | [] => rfl
  | t :: rest => by
    funext value
    rw [inTurn, inTurn_filter stop run p rest]
    cases hp : p t with
    | true => rw [List.filter_cons_of_pos hp, inTurn, if_pos rfl]
    | false => rw [List.filter_cons_of_neg (ne_true_of_eq_false hp), if_neg Bool.false_ne_true,
        ok_andThen]

/-! ### Runs over members -/

/-- The outcome of members of which each is validated by itself, by a rule for its key: it passes exactly
if every member does, and then leaves of each what the rule leaves. -/
structure Memberwise (rule : String → α → Outcome α) (members : List (String × α))
    (x : Outcome (List (String × α))) : Prop where
  passes_iff : x.passes = true ↔ ∀ e ∈ members, (rule e.1 e.2).passes = true
  value_eq : x.passes = true → x.value = members.map fun e => (e.1, (rule e.1 e.2).value)

theorem memberwise_ok (members : List (String × α)) :
    Memberwise (fun _ => ok) members (ok members) :=
  ⟨iff_of_true rfl fun _ _ => rfl, fun _ => (List.map_id members).symm⟩

theorem value_cons_of_passes {stop : Bool} {first : Outcome α} {rest : List α}
    {others : List α → Outcome (List α)} (h : first.passes = true) :
    (cons stop first rest others).value = first.value :: (others rest).value := by
  rw [cons_eq, h, Bool.not_true, Bool.and_false, if_neg Bool.false_ne_true]

theorem memberwise_eachMember (stop : Bool) (rule : String → α → Outcome α) :
    ∀ members : List (String × α), Memberwise rule members (eachMember stop rule members)
  | [] => ⟨by simp [eachMember], fun _ => rfl⟩
  | (key, x) :: rest => by
    have hrest := memberwise_eachMember stop rule rest
    rw [eachMember_cons]
    refine ⟨?_, fun h => ?_⟩
    · rw [passes_cons, passes_map, passes_under, hrest.passes_iff, List.forall_mem_cons]
    · obtain ⟨hfirst, hothers⟩ := (passes_cons _ _ _ _).mp h
      rw [value_cons_of_passes hfirst, hrest.value_eq hothers]
      rfl

/-- Where no key stands twice, a rule for one key leaves the other members alone. -/
theorem value_atMember (key : String) (rule : α → Outcome α) :
    ∀ {members : List (String × α)}, (Entries.keys members).Nodup →
      (atMember key rule members).value =
        members.map fun e => (e.1, (if key = e.1 then rule e.2 else ok e.2).value)
  | [], _ => rfl
  | (k, x) :: rest, hkeys => by
    rw [Entries.keys_cons, List.nodup_cons] at hkeys
    rw [atMember, List.map_cons]
    by_cases hk : key = k
    · -- the key does not come again, so the rule has nothing to do on the rest
      have hother : ∀ e ∈ rest, key ≠ e.1 := by
        intro e he heq
        have hmem : e.1 ∈ Entries.keys rest := List.mem_map_of_mem he
        rw [← heq, hk] at hmem
        exact hkeys.1 hmem
      rw [if_pos hk.symm, if_pos hk]
      refine congrArg ((k, (rule x).value) :: ·) ?_
      refine (List.map_id rest).symm.trans (List.map_congr_left fun e he => ?_)
      rw [if_neg (hother e he)]
      rfl
    · rw [if_neg (Ne.symm hk), if_neg hk]
      exact congrArg ((k, x) :: ·) (value_atMember key rule hkeys.2)

theorem findings_atMember (key : String) (rule : α → Outcome α) : ∀ members : List (String × α),
    (atMember key rule members).findings =
      match Entries.get? members key with
      | some x => ((rule x).under key).findings
      | none => []
  | [] => rfl
  | (k, x) :: rest => by
    rw [atMember, Entries.get?_cons]
    by_cases hk : k = key
    · rw [if_pos hk, if_pos hk]
      rfl
    · rw [if_neg hk, if_neg hk]
      exact findings_atMember key rule rest

theorem memberwise_atMember (key : String) (rule : α → Outcome α) {members : List (String × α)}
    (hkeys : (Entries.keys members).Nodup) :
    Memberwise (fun k x => if key = k then rule x else ok x) members (atMember key rule members) := by
  refine ⟨?_, fun _ => value_atMember key rule hkeys⟩
  rw [passes_iff, findings_atMember]
  constructor
  · intro h e he
    by_cases hk : key = e.1
    · rw [hk, Entries.get?_of_mem hkeys he] at h
      rw [if_pos hk, passes_iff]
      exact List.map_eq_nil_iff.mp h
    · rw [if_neg hk, passes_ok]
  · intro h
    cases hx : Entries.get? members key with
    | none => rfl
    | some x =>
      have hpasses := h (key, x) (Entries.mem_of_get? hx)
      rw [if_pos rfl, passes_iff] at hpasses
      exact List.map_eq_nil_iff.mpr hpasses

theorem Memberwise.andThen (stop : Bool) {rule rule' : String → α → Outcome α}
    {members : List (String × α)} {x : Outcome (List (String × α))}
    {next : List (String × α) → Outcome (List (String × α))} (h : Memberwise rule members x)
    (hkeys : (Entries.keys members).Nodup)
    (hnext : ∀ others, (Entries.keys others).Nodup → Memberwise rule' others (next others)) :
    Memberwise (fun key value => (rule key value).andThen stop (rule' key)) members
      (x.andThen stop next) := by
  have hleft := hnext (members.map fun e => (e.1, (rule e.1 e.2).value))
    (by rwa [Entries.keys_map fun key value => (rule key value).value])
  refine ⟨?_, fun hp => ?_⟩
  · rw [passes_andThen]
    constructor
    · rintro ⟨hx, hn⟩ e he
      rw [h.value_eq hx, hleft.passes_iff, List.forall_mem_map] at hn
      exact (passes_andThen _ _ _).mpr ⟨h.passes_iff.mp hx e he, hn e he⟩
    · intro hall
      have hboth := fun e he => (passes_andThen _ _ _).mp (hall e he)
      have hx := h.passes_iff.mpr fun e he => (hboth e he).1
      rw [h.value_eq hx, hleft.passes_iff, List.forall_mem_map]
      exact ⟨hx, fun e he => (hboth e he).2⟩
  · obtain ⟨hx, hn⟩ := (passes_andThen x stop next).mp hp
    rw [h.value_eq hx] at hn
    rw [andThen_of_passes hx, h.value_eq hx, hleft.value_eq hn, List.map_map]
    refine List.map_congr_left fun e he => ?_
    rw [andThen_of_passes (h.passes_iff.mp hx e he)]
    rfl

theorem memberwise_inTurn (stop : Bool) {rule : σ → String → α → Outcome α}
    {run : σ → List (String × α) → Outcome (List (String × α))} :
    ∀ {ts : List σ}, (∀ t ∈ ts, ∀ members, (Entries.keys members).Nodup →
        Memberwise (rule t) members (run t members)) →
      ∀ members, (Entries.keys members).Nodup →
        Memberwise (fun key => inTurn stop (fun t => rule t key) ts) members
          (inTurn stop run ts members)
  | [], _, members, _ => memberwise_ok members
  | t :: rest, h, members, hkeys => by
    have hrest := memberwise_inTurn stop fun u hu => h u (List.mem_cons_of_mem t hu)
    exact (h t List.mem_cons_self members hkeys).andThen stop hkeys hrest

end Outcome

variable [Pattern.Engine]

namespace Schema

/-! ### The schemas that govern a member -/

/-- The schemas that govern the member under a key, in the order in which they run: its declaration; if
there is none, those of the patterns that accept it; and if there is neither, the one for extra members. -/
def governing (s : Schema) (key : String) : List Schema :=
  (s.properties.filter (·.1 = key)).map (·.2) ++
  ((if s.declares key then [] else (s.patternProperties.filter (Pattern.accepts ·.1 key)).map (·.2)) ++
  match s.additional with
  | .schema t => if s.isExtra key then [t] else []
  | _ => [])

/-- What validation makes of the member under a key. -/
def evaluateMember (o : Options) (s : Schema) (key : String) : Json → Outcome Json :=
  Outcome.inTurn o.stops (evaluate o false) (s.governing key)

variable {o : Options} {s : Schema} {members : List (String × Json)}

theorem evaluateMember_eq (o : Options) (s : Schema) (key : String) :
    s.evaluateMember o key = fun value =>
      (Outcome.inTurn o.stops
        (fun e value => if e.1 = key then e.2.evaluate o false value else .ok value)
        s.properties value).andThen o.stops fun value =>
      (if s.declares key then .ok value
        else Outcome.inTurn o.stops
          (fun e value => if Pattern.accepts e.1 key then e.2.evaluate o false value else .ok value)
          s.patternProperties value).andThen o.stops fun value =>
      match s.additional with
      | .schema t => if s.isExtra key then t.evaluate o false value else .ok value
      | _ => .ok value := by
  have hdeclared := Outcome.inTurn_filter o.stops
    (fun (e : String × Schema) => e.2.evaluate o false) (·.1 = key) s.properties
  have hpatterned := Outcome.inTurn_filter o.stops
    (fun (e : String × Schema) => e.2.evaluate o false) (Pattern.accepts ·.1 key) s.patternProperties
  simp only [decide_eq_true_eq] at hdeclared
  rw [evaluateMember, governing, Outcome.inTurn_append, Outcome.inTurn_append, Outcome.inTurn_map,
    hdeclared, hpatterned]
  cases s.declares key with
  | true =>
    cases s.additional with
    | schema t => cases s.isExtra key <;> simp [Outcome.inTurn_singleton]
    | unspecified => rfl
    | allowed b => rfl
  | false =>
    simp only [Bool.false_eq_true, if_false, Outcome.inTurn_map]
    cases s.additional with
    | schema t => cases s.isExtra key <;> simp [Outcome.inTurn_singleton]
    | unspecified => rfl
    | allowed b => rfl

/-- Where no key stands twice, each member goes by itself through the schemas that govern it. -/
theorem memberwise_evaluateMembers (hkeys : (Entries.keys members).Nodup) (h : s.KeysHold members) :
    (s.evaluateMembers o members).Memberwise (s.evaluateMember o) members := by
  rw [evaluateMembers, (s.keyViolations_eq_nil members).mpr h, Outcome.broken_nil,
    Outcome.ok_andThen, funext (evaluateMember_eq o s), evaluateDeclared]
  refine (Outcome.memberwise_inTurn o.stops (fun e _ others hothers =>
    Outcome.memberwise_atMember e.1 (e.2.evaluate o false) hothers) members hkeys).andThen _ hkeys
    fun others hothers => ?_
  refine (Outcome.memberwise_eachMember o.stops _ others).andThen _ hothers fun others _ => ?_
  rw [evaluateExtra]
  cases s.additional with
  | schema t => exact Outcome.memberwise_eachMember o.stops _ others
  | unspecified => exact Outcome.memberwise_ok others
  | allowed b => exact Outcome.memberwise_ok others

theorem governing_of_declared (hnames : (Entries.keys s.properties).Nodup) {key : String} {t : Schema}
    (h : Entries.get? s.properties key = some t) : s.governing key = [t] := by
  have hdeclares := declares_of_get? h
  have hextra : s.isExtra key = false := by rw [isExtra, hdeclares]; rfl
  rw [governing, Entries.filter_key hnames, h, hdeclares, hextra]
  cases s.additional <;> rfl

theorem governing_of_undeclared {key : String} (h : s.declares key = false) :
    s.governing key = (s.patternProperties.filter (Pattern.accepts ·.1 key)).map (·.2) ++
      match s.additional with
      | .schema t => if s.matchesKey key then [] else [t]
      | _ => [] := by
  have hnone : s.properties.filter (·.1 = key) = [] := by
    rw [List.filter_eq_nil_iff]
    rintro e he hkey
    have hthere := declares_of_mem he
    rw [of_decide_eq_true hkey] at hthere
    exact absurd (hthere.symm.trans h) (by decide)
  have hextra : s.isExtra key = !s.matchesKey key := by rw [isExtra, h]; rfl
  rw [governing, hnone, h, hextra]
  cases s.additional with
  | schema t => cases s.matchesKey key <;> rfl
  | unspecified => rfl
  | allowed b => rfl

end Schema

end DataSchema
