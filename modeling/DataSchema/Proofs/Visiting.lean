import DataSchema.Proofs.Members
import Mathlib.Data.List.Basic

/-!
The order in which the members of an object are visited.

A run that no finding ends goes over an object three times, but it visits each member in one of the three
only (`Schema.turn`). So it leaves of every member what the schemas that govern it leave, and its findings
are those of the members, put together in the order of the visits: first the declared names, then the keys
that a pattern names, then the others (`visits_evaluateMembers`).
-/

namespace DataSchema

namespace Outcome

variable {α σ : Type}

theorem andThen_false (x : Outcome α) (next : α → Outcome α) :
    x.andThen false next = ⟨(next x.value).value, x.findings ++ (next x.value).findings⟩ := rfl

/-- What a rule finds in the member under a key, seen from the object. -/
def findingsAt (rule : String → α → Outcome α) (members : List (String × α)) (key : String) :
    List Finding :=
  match Entries.get? members key with
  | some value => ((rule key value).under key).findings
  | none => []

/-- The outcome of members under a rule for each key: of every member what the rule leaves, and the findings
of the members in the order in which their keys are visited. -/
structure Visits (rule : String → α → Outcome α) (order : List String) (members : List (String × α))
    (x : Outcome (List (String × α))) : Prop where
  value_eq : x.value = members.map fun e => (e.1, (rule e.1 e.2).value)
  findings_eq : x.findings = order.flatMap (findingsAt rule members)

variable {rule rule' : String → α → Outcome α} {members : List (String × α)} {order order' : List String}

theorem findingsAt_of_ok {key : String} (h : rule key = ok) : findingsAt rule members key = [] := by
  rw [findingsAt, h]
  split <;> rfl

theorem visits_ok (members : List (String × α)) : Visits (fun _ => ok) [] members (ok members) :=
  ⟨(List.map_id members).symm, rfl⟩

theorem eachMember_false (rule : String → α → Outcome α) : ∀ members : List (String × α),
    eachMember false rule members =
      ⟨members.map fun e => (e.1, (rule e.1 e.2).value),
        members.flatMap fun e => ((rule e.1 e.2).under e.1).findings⟩
  | [] => rfl
  | (key, x) :: rest => by
    rw [eachMember_cons, cons_eq, eachMember_false rule rest]
    rfl

theorem eachMember_ok : ∀ members : List (String × α),
    eachMember false (fun _ => ok) members = ok members
  | [] => rfl
  | (_, _) :: rest => by
    rw [eachMember, eachMember_ok rest]
    rfl

/-- Keys on which the rule does nothing can be left out. -/
theorem flatMap_findingsAt_filter {p : String → Bool} (h : ∀ key, p key = false → rule key = ok) :
    ∀ order : List String,
      (order.filter p).flatMap (findingsAt rule members) = order.flatMap (findingsAt rule members)
  | [] => rfl
  | key :: rest => by
    rw [List.filter_cons, List.flatMap_cons, ← flatMap_findingsAt_filter h rest]
    cases hp : p key with
    | true => rw [if_pos rfl, List.flatMap_cons]
    | false => rw [if_neg Bool.false_ne_true, findingsAt_of_ok (h key hp), List.nil_append]

/-- Where no key stands twice, going over the members visits their keys in order, of which those can be left
out on which the rule does nothing. -/
theorem visits_eachMember (hkeys : (Entries.keys members).Nodup) {p : String → Bool}
    (h : ∀ key, p key = false → rule key = ok) :
    Visits rule ((Entries.keys members).filter p) members (eachMember false rule members) := by
  rw [eachMember_false]
  refine ⟨rfl, ?_⟩
  rw [flatMap_findingsAt_filter h, Entries.keys, List.flatMap_map]
  refine List.flatMap_congr fun e he => ?_
  rw [findingsAt, Entries.get?_of_mem hkeys he]

theorem visits_atMember (hkeys : (Entries.keys members).Nodup) (key : String) (rule : α → Outcome α) :
    Visits (fun k value => if key = k then rule value else ok value) [key] members
      (atMember key rule members) := by
  refine ⟨value_atMember key rule hkeys, ?_⟩
  rw [List.flatMap_singleton, findingsAt, findings_atMember]
  cases Entries.get? members key <;> simp

/-- Two runs that visit different members come to one that visits those of the first and then those of
the second. -/
theorem Visits.andThen {x : Outcome (List (String × α))}
    {next : List (String × α) → Outcome (List (String × α))} (h : Visits rule order members x)
    (hnext : ∀ others, Entries.keys others = Entries.keys members →
      Visits rule' order' others (next others))
    (hfirst : ∀ key ∈ order, rule' key = ok) (hsecond : ∀ key ∈ order', rule key = ok) :
    Visits (fun key value => (rule key value).andThen false (rule' key)) (order ++ order') members
      (x.andThen false next) := by
  have hleft := hnext x.value (by rw [h.value_eq, Entries.keys_map fun k y => (rule k y).value])
  refine ⟨?_, ?_⟩
  · rw [andThen_false, hleft.value_eq, h.value_eq, List.map_map]
    rfl
  · rw [andThen_false, hleft.findings_eq, h.findings_eq, List.flatMap_append]
    refine congrArg₂ (· ++ ·) (List.flatMap_congr fun key hkey => ?_)
      (List.flatMap_congr fun key hkey => ?_)
    · simp only [findingsAt, hfirst key hkey, andThen_ok]
    · have hsame : Entries.get? x.value key = Entries.get? members key := by
        rw [h.value_eq, Entries.get?_map fun k y => (rule k y).value, hsecond key hkey]
        exact Option.map_id'
      simp only [findingsAt, hsame, hsecond key hkey, ok_andThen]

/-! ### Declared names -/

variable (run : σ → α → Outcome α)

theorem inTurn_of_not_mem {key : String} : ∀ {ps : List (String × σ)}, key ∉ Entries.keys ps →
    inTurn false (fun e value => if e.1 = key then run e.2 value else ok value) ps = ok
  | [], _ => rfl
  | e :: rest, h => by
    rw [Entries.keys_cons, List.mem_cons, not_or] at h
    funext value
    rw [inTurn, if_neg (Ne.symm h.1), ok_andThen, inTurn_of_not_mem h.2]

/-- A run over names visits these, if none stands twice. -/
theorem visits_inTurn : ∀ {ps : List (String × σ)}, (Entries.keys ps).Nodup →
    ∀ {members : List (String × α)}, (Entries.keys members).Nodup →
      Visits (fun key => inTurn false (fun e value => if e.1 = key then run e.2 value else ok value) ps)
        (Entries.keys ps) members (inTurn false (fun e => atMember e.1 (run e.2)) ps members)
  | [], _, members, _ => visits_ok members
  | e :: rest, hnames, members, hkeys => by
    rw [Entries.keys_cons, List.nodup_cons] at hnames
    refine (visits_atMember hkeys e.1 (run e.2)).andThen (fun others hothers =>
      visits_inTurn hnames.2 (hothers ▸ hkeys)) ?_ ?_
    · rintro key hkey
      rw [List.mem_singleton.mp hkey]
      exact inTurn_of_not_mem run hnames.1
    · rintro key hkey
      have hne : e.1 ≠ key := fun heq => hnames.1 (heq ▸ hkey)
      exact funext fun value => if_neg hne

end Outcome

variable [Pattern.Engine]

namespace Schema

/-- Which of the three times the members under a key are visited: the declared ones first, then those that a
pattern names, then the others. -/
def turn (s : Schema) (key : String) : Nat :=
  if s.declares key then 0 else if s.matchesKey key then 1 else 2

/-- The order in which the keys of an object are visited. -/
def visitOrder (s : Schema) (keys : List String) : List String :=
  s.propertyNames ++ (keys.filter (s.turn · = 1) ++ keys.filter (s.turn · = 2))

/-! ### The three visits -/

/-- What the declarations make of the member under a key. -/
def declaredRule (o : Options) (s : Schema) (key : String) : Json → Outcome Json :=
  Outcome.inTurn o.stops
    (fun e value => if e.1 = key then e.2.evaluate o false value else .ok value) s.properties

/-- What the patterns make of the member under a key. -/
def patternedRule (o : Options) (s : Schema) (key : String) (value : Json) : Outcome Json :=
  if s.declares key then .ok value
  else Outcome.inTurn o.stops
    (fun e value => if Pattern.accepts e.1 key then e.2.evaluate o false value else .ok value)
    s.patternProperties value

/-- What the schema for extra members makes of the member under a key. -/
def extraRule (o : Options) (s : Schema) (key : String) (value : Json) : Outcome Json :=
  match s.additional with
  | .schema t => if s.isExtra key then t.evaluate o false value else .ok value
  | _ => .ok value

variable {o : Options} {s : Schema} {key : String} {members : List (String × Json)}

theorem evaluateMember_eq_rules (o : Options) (s : Schema) (key : String) :
    s.evaluateMember o key = fun value => (s.declaredRule o key value).andThen o.stops fun value =>
      (s.patternedRule o key value).andThen o.stops (s.extraRule o key) :=
  evaluateMember_eq o s key

theorem turn_eq_zero : s.turn key = 0 ↔ s.declares key = true := by
  rw [turn]
  cases s.declares key <;> cases s.matchesKey key <;> simp

theorem turn_of_mem_propertyNames (h : key ∈ s.propertyNames) : s.turn key = 0 :=
  turn_eq_zero.mpr ((Entries.has_iff s.properties key).mpr h)

theorem turn_of_mem_filter {keys : List String} {i : Nat} (h : key ∈ keys.filter (s.turn · = i)) :
    s.turn key = i := of_decide_eq_true (List.mem_filter.mp h).2

/-- The declared names come first in the order of the visits. -/
theorem turn_pos_of_mem {keys : List String}
    (h : key ∈ keys.filter (s.turn · = 1) ++ keys.filter (s.turn · = 2)) : 0 < s.turn key := by
  rcases List.mem_append.mp h with h | h
  · rw [turn_of_mem_filter h]
    decide
  · rw [turn_of_mem_filter h]
    decide

theorem declaredRule_of_turn (ho : o.stops = false) (h : s.turn key ≠ 0) :
    s.declaredRule o key = .ok := by
  have hundeclared : key ∉ s.propertyNames := by
    rwa [ne_eq, turn_eq_zero, declares, Entries.has_iff] at h
  rw [declaredRule, ho]
  exact Outcome.inTurn_of_not_mem (evaluate o false) hundeclared

theorem patternedRule_of_turn (h : s.turn key ≠ 1) : s.patternedRule o key = .ok := by
  funext value
  rw [patternedRule]
  split
  · rfl
  · next hundeclared =>
    have hnone : s.patternProperties.filter (Pattern.accepts ·.1 key) = [] := by
      rw [turn, if_neg hundeclared] at h
      refine List.filter_eq_nil_iff.mpr fun e he haccepts => ?_
      have hmatches : s.matchesKey key = true := List.any_eq_true.mpr ⟨e, he, haccepts⟩
      exact h (if_pos hmatches)
    rw [Outcome.inTurn_filter o.stops (fun e : String × Schema => e.2.evaluate o false)
      (Pattern.accepts ·.1 key), hnone, Outcome.inTurn_nil]

theorem extraRule_of_turn (h : s.turn key ≠ 2) : s.extraRule o key = .ok := by
  have hextra : s.isExtra key = false := by
    rw [isExtra]
    rw [turn] at h
    cases hdeclared : s.declares key <;> cases hmatches : s.matchesKey key <;> simp_all
  funext value
  rw [extraRule]
  split
  · rw [hextra]
    rfl
  · rfl

section Visits

variable (ho : o.stops = false) (hkeys : (Entries.keys members).Nodup)

include ho hkeys

theorem visits_evaluateDeclared (hnames : s.propertyNames.Nodup) :
    Outcome.Visits (s.declaredRule o) s.propertyNames members (s.evaluateDeclared o members) := by
  unfold declaredRule
  rw [evaluateDeclared, ho]
  exact Outcome.visits_inTurn (evaluate o false) hnames hkeys

theorem visits_evaluatePatterned :
    Outcome.Visits (s.patternedRule o) ((Entries.keys members).filter (s.turn · = 1)) members
      (s.evaluatePatterned o members) := by
  have hrun : s.evaluatePatterned o members =
    Outcome.eachMember false (s.patternedRule o) members := by rw [← ho]; rfl
  rw [hrun]
  exact Outcome.visits_eachMember hkeys fun key h => patternedRule_of_turn (of_decide_eq_false h)

theorem visits_evaluateExtra :
    Outcome.Visits (s.extraRule o) ((Entries.keys members).filter (s.turn · = 2)) members
      (s.evaluateExtra o members) := by
  have hrun : s.evaluateExtra o members = Outcome.eachMember false (s.extraRule o) members := by
    rw [evaluateExtra, ho]
    unfold extraRule
    cases s.additional with
    | schema t => rfl
    | _ => exact (Outcome.eachMember_ok members).symm
  rw [hrun]
  exact Outcome.visits_eachMember hkeys fun key h => extraRule_of_turn (of_decide_eq_false h)

/-- Where no key stands twice and no finding ends the run, each member is visited once, in its turn. -/
theorem visits_evaluateMembers (hnames : s.propertyNames.Nodup) :
    Outcome.Visits (s.evaluateMember o) (s.visitOrder (Entries.keys members)) members
      ((s.evaluateDeclared o members).andThen o.stops fun members =>
        (s.evaluatePatterned o members).andThen o.stops (s.evaluateExtra o)) := by
  have hdeclared := visits_evaluateDeclared ho hkeys hnames
  rw [funext (evaluateMember_eq_rules o s), ho]
  refine hdeclared.andThen (fun others hothers => ?_) (fun key hkey => ?_) fun key hkey => ?_
  · have hpatterned : Outcome.Visits (s.patternedRule o) _ others _ :=
      visits_evaluatePatterned ho (hothers ▸ hkeys)
    rw [hothers] at hpatterned
    refine hpatterned.andThen (fun rest hrest => ?_) (fun key hkey => ?_) fun key hkey => ?_
    · have hextra : Outcome.Visits (s.extraRule o) _ rest _ :=
        visits_evaluateExtra ho (by rwa [hrest, hothers])
      rwa [hrest, hothers] at hextra
    · exact extraRule_of_turn (by rw [turn_of_mem_filter hkey]; decide)
    · exact patternedRule_of_turn (by rw [turn_of_mem_filter hkey]; decide)
  · have hzero := turn_of_mem_propertyNames hkey
    rw [patternedRule_of_turn (by rw [hzero]; decide), extraRule_of_turn (by rw [hzero]; decide)]
    exact funext fun value => Outcome.ok_andThen value false _
  · exact declaredRule_of_turn ho (Nat.ne_of_gt (turn_pos_of_mem hkey))

end Visits

end Schema

end DataSchema
