import DataSchema.Validation.Outcome

/-!
Laws of outcomes.

The outcomes of runs are put together as the runs are: one after another, over elements, over members,
over a list of rules (`Run.toOutcome_andThen` and those behind it). A run *judges* a value by a condition
when it leaves the value as it is and passes exactly if the condition holds; where a whole run is asked
for, it must come to its end besides (`Run.Clears`). Judging is kept by every way in which runs are put
together, and whether the first finding ends the run makes no difference to it. The outcome of a run judges
as the run does that need not come to its end.
-/

namespace DataSchema

namespace Outcome

variable {α σ : Type}

/-! ### Putting outcomes together -/

/-- The outcome of the next rule on the value, unless something was found and the run is to stop then. -/
def andThen (x : Outcome α) (stop : Bool) (next : α → Outcome α) : Outcome α :=
  if stop && !x.passes then x
  else
    let y := next x.value
    ⟨y.value, x.findings ++ y.findings⟩

/-- The outcome of a rule on every element in turn, the first one having the given index. -/
def eachItem (stop : Bool) (rule : α → Outcome α) (index : Nat) : List α → Outcome (List α)
  | [] => ok []
  | x :: rest =>
    let first := (rule x).under (toString index)
    if stop && !first.passes then ⟨first.value :: rest, first.findings⟩
    else
      let others := eachItem stop rule (index + 1) rest
      ⟨first.value :: others.value, first.findings ++ others.findings⟩

/-- The outcome of a rule on the member under a key, if there is one. -/
def atMember (key : String) (rule : α → Outcome α) :
    List (String × α) → Outcome (List (String × α))
  | [] => ok []
  | (k, x) :: rest =>
    if k = key then ((rule x).under key).map fun x => (k, x) :: rest
    else (atMember key rule rest).map ((k, x) :: ·)

/-- The outcome of a rule on every member in turn, with the key of the member. -/
def eachMember (stop : Bool) (rule : String → α → Outcome α) :
    List (String × α) → Outcome (List (String × α))
  | [] => ok []
  | (k, x) :: rest =>
    let first := (rule k x).under k
    if stop && !first.passes then ⟨(k, first.value) :: rest, first.findings⟩
    else
      let others := eachMember stop rule rest
      ⟨(k, first.value) :: others.value, first.findings ++ others.findings⟩

/-- The outcome of a rule for each of several things in turn, each time on the value that was left before. -/
def inTurn (stop : Bool) (rule : σ → α → Outcome α) : List σ → α → Outcome α
  | [], value => ok value
  | s :: rest, value => (rule s value).andThen stop (inTurn stop rule rest)

end Outcome

/-! ### Outcomes of runs -/

namespace Run

variable {α σ : Type} (stop : Bool)

/-- Runs a rule for each of several things in turn, each time on the value that was left before. -/
def inTurn (rule : σ → α → Run α) : List σ → α → Run α
  | [], value => ok value
  | s :: rest, value => (rule s value).andThen stop (inTurn rule rest)

/-- Runs over the first part of a list, then over the others, which are left alone if the run ends before
them. -/
def cons (first : Run α) (rest : List α) (others : List α → Run (List α)) : Run (List α) :=
  ((first.map fun x => (x, rest)).andThen stop fun parts =>
    (others parts.2).map fun rest => (parts.1, rest)).map fun parts => parts.1 :: parts.2

theorem eachItem_cons (rule : α → Run α) (index : Nat) (x : α) (rest : List α) :
    eachItem stop rule index (x :: rest) =
      cons stop ((rule x).under (toString index)) rest (eachItem stop rule (index + 1)) := by
  rw [eachItem, cons, andThen, apply_ite (map _)]
  rfl

theorem eachMember_cons (rule : String → α → Run α) (key : String) (x : α)
    (rest : List (String × α)) :
    eachMember stop rule ((key, x) :: rest) =
      cons stop (((rule key x).under key).map (Prod.mk key)) rest (eachMember stop rule) := by
  rw [eachMember, cons, andThen, apply_ite (map _)]
  rfl

theorem toOutcome_andThen (x : Run α) (next : α → Run α) :
    (x.andThen stop next).toOutcome = x.toOutcome.andThen stop fun value => (next value).toOutcome := by
  rw [andThen, Outcome.andThen, apply_ite toOutcome]
  rfl

theorem toOutcome_inTurn (rule : σ → α → Run α) : ∀ (ss : List σ) (value : α),
    (inTurn stop rule ss value).toOutcome =
      Outcome.inTurn stop (fun s value => (rule s value).toOutcome) ss value
  | [], _ => rfl
  | s :: rest, value => by
    rw [inTurn, toOutcome_andThen, funext (toOutcome_inTurn rule rest), Outcome.inTurn]

theorem toOutcome_eachItem (rule : α → Run α) : ∀ (items : List α) (index : Nat),
    (eachItem stop rule index items).toOutcome =
      Outcome.eachItem stop (fun item => (rule item).toOutcome) index items
  | [], _ => rfl
  | x :: rest, index => by
    rw [eachItem, Outcome.eachItem, ← toOutcome_eachItem rule rest, apply_ite toOutcome]
    rfl

theorem toOutcome_atMember (key : String) (rule : α → Run α) : ∀ members : List (String × α),
    (atMember key rule members).toOutcome =
      Outcome.atMember key (fun value => (rule value).toOutcome) members
  | [] => rfl
  | (k, x) :: rest => by
    rw [atMember, Outcome.atMember, ← toOutcome_atMember key rule rest, apply_ite toOutcome]
    rfl

theorem toOutcome_eachMember (rule : String → α → Run α) : ∀ members : List (String × α),
    (eachMember stop rule members).toOutcome =
      Outcome.eachMember stop (fun key value => (rule key value).toOutcome) members
  | [] => rfl
  | (k, x) :: rest => by
    rw [eachMember, Outcome.eachMember, ← toOutcome_eachMember rule rest, apply_ite toOutcome]
    rfl

/-! ### Runs one behind the other -/

variable {stop}

theorem andThen_of_passes {x : Run α} (h : x.passes = true) (next : α → Run α) :
    x.andThen stop next = x.both (fun _ value => value) (next x.value) := by
  rw [andThen, h, Bool.not_true, Bool.and_false]
  rfl

@[simp] theorem ok_andThen (value : α) (next : α → Run α) :
    (ok value).andThen stop next = next value := andThen_of_passes rfl next

theorem andThen_ok (x : Run α) : x.andThen stop ok = x := by
  rw [andThen]
  split
  · rfl
  · rw [both, ok, Bool.or_false]
    exact congrArg (fun findings => (⟨⟨x.value, findings⟩, x.breaksOff⟩ : Run α))
      (List.append_nil x.findings)

/-- The run comes to its end and finds nothing. -/
def Succeeds (x : Run α) : Prop := x.passes = true ∧ x.breaksOff = false

/-- A run that succeeds is the value it leaves. -/
theorem Succeeds.eq_ok {x : Run α} (h : x.Succeeds) : x = ok x.value := by
  obtain ⟨⟨value, findings⟩, breaksOff⟩ := x
  obtain ⟨hp, rfl⟩ := h
  exact congrArg (fun findings => (⟨⟨value, findings⟩, false⟩ : Run α)) (List.isEmpty_iff.mp hp)

theorem Succeeds.andThen {x : Run α} (h : x.Succeeds) (next : α → Run α) :
    x.andThen stop next = next x.value := by
  rw [h.eq_ok, ok_andThen]
  rfl

theorem breaksOff_andThen (x : Run α) (next : α → Run α) :
    (x.andThen stop next).breaksOff =
      (x.breaksOff || (!(stop && !x.passes) && (next x.value).breaksOff)) := by
  rw [andThen]
  cases stop && !x.passes with
  | true => exact (Bool.or_false _).symm
  | false => rfl

end Run

namespace Outcome

variable {α β σ : Type}

/-! ### Passing -/

theorem passes_iff (x : Outcome α) : x.passes = true ↔ x.findings = [] := List.isEmpty_iff

@[simp] theorem passes_ok (value : α) : (ok value).passes = true := rfl

@[simp] theorem value_broken (value : α) (vs : List Violation) : (broken value vs).value = value := rfl

@[simp] theorem broken_nil (value : α) : broken value [] = ok value := rfl

theorem passes_broken (value : α) (vs : List Violation) :
    (broken value vs).passes = true ↔ vs = [] := by
  rw [passes_iff, broken, List.map_eq_nil_iff]

@[simp] theorem passes_map (f : α → β) (x : Outcome α) : (x.map f).passes = x.passes := rfl

@[simp] theorem passes_under (key : String) (x : Outcome α) : (x.under key).passes = x.passes :=
  List.isEmpty_map

/-- An outcome that passes is the value it leaves. -/
theorem eq_ok_of_passes {x : Outcome α} (h : x.passes = true) : x = ok x.value := by
  obtain ⟨value, findings⟩ := x
  rw [passes_iff] at h
  exact congrArg (Outcome.mk value) h

theorem andThen_of_passes {x : Outcome α} (h : x.passes = true) (stop : Bool)
    (next : α → Outcome α) : x.andThen stop next = next x.value := by
  rw [passes_iff] at h
  simp [andThen, passes, h]

@[simp] theorem ok_andThen (value : α) (stop : Bool) (next : α → Outcome α) :
    (ok value).andThen stop next = next value := andThen_of_passes rfl stop next

theorem not_passes_andThen {x : Outcome α} (h : ¬ x.passes = true) (stop : Bool)
    (next : α → Outcome α) : ¬ (x.andThen stop next).passes = true := by
  rw [passes_iff] at h
  cases stop <;> simp [andThen, passes, h]

theorem passes_andThen (x : Outcome α) (stop : Bool) (next : α → Outcome α) :
    (x.andThen stop next).passes = true ↔ x.passes = true ∧ (next x.value).passes = true := by
  by_cases h : x.passes = true
  · rw [andThen_of_passes h, and_iff_right h]
  · exact iff_of_false (not_passes_andThen h stop next) fun hp => h hp.1

theorem andThen_ok (x : Outcome α) (stop : Bool) : x.andThen stop ok = x := by
  by_cases h : x.passes = true
  · rw [andThen_of_passes h, ← eq_ok_of_passes h]
  · rw [andThen]
    split
    · rfl
    · exact congrArg (Outcome.mk x.value) (List.append_nil x.findings)

/-- What is left is what the first rule left, or what the next one makes of it. -/
theorem value_andThen (x : Outcome α) (stop : Bool) (next : α → Outcome α) :
    (x.andThen stop next).value = x.value ∨ (x.andThen stop next).value = (next x.value).value := by
  rw [andThen]
  split
  · exact .inl rfl
  · exact .inr rfl

/-! ### Containers -/

/-- The outcome of the first part of a list, then that of the others, which are left alone if the run
ends before them. -/
def cons (stop : Bool) (first : Outcome α) (rest : List α) (others : List α → Outcome (List α)) :
    Outcome (List α) :=
  ((first.map fun x => (x, rest)).andThen stop fun parts =>
    (others parts.2).map fun rest => (parts.1, rest)).map fun parts => parts.1 :: parts.2

theorem cons_eq (stop : Bool) (first : Outcome α) (rest : List α)
    (others : List α → Outcome (List α)) :
    cons stop first rest others =
      if stop && !first.passes then ⟨first.value :: rest, first.findings⟩
      else ⟨first.value :: (others rest).value, first.findings ++ (others rest).findings⟩ := by
  rw [cons, andThen, passes_map]
  by_cases h : (stop && !first.passes) = true
  · rw [if_pos h, if_pos h]; rfl
  · rw [if_neg h, if_neg h]; rfl

theorem eachItem_cons (stop : Bool) (rule : α → Outcome α) (index : Nat) (x : α) (rest : List α) :
    eachItem stop rule index (x :: rest) =
      cons stop ((rule x).under (toString index)) rest (eachItem stop rule (index + 1)) := by
  rw [eachItem, cons_eq]

theorem eachMember_cons (stop : Bool) (rule : String → α → Outcome α) (key : String) (x : α)
    (rest : List (String × α)) :
    eachMember stop rule ((key, x) :: rest) =
      cons stop (((rule key x).under key).map (Prod.mk key)) rest (eachMember stop rule) := by
  rw [eachMember, cons_eq]; rfl

/-! ### Runs over elements -/

section Elements

variable {stop : Bool} {rule : α → Outcome α}

theorem passes_cons (stop : Bool) (first : Outcome α) (rest : List α)
    (others : List α → Outcome (List α)) :
    (cons stop first rest others).passes = true ↔
      first.passes = true ∧ (others rest).passes = true := by
  rw [cons, passes_map, passes_andThen, passes_map, passes_map]
  rfl

theorem passes_eachItem (stop : Bool) (rule : α → Outcome α) : ∀ (items : List α) (index : Nat),
    (eachItem stop rule index items).passes = true ↔ ∀ x ∈ items, (rule x).passes = true
  | [], _ => by simp [eachItem]
  | x :: rest, index => by
    rw [eachItem_cons, passes_cons, passes_under, passes_eachItem stop rule rest,
      List.forall_mem_cons]

theorem length_eachItem (stop : Bool) (rule : α → Outcome α) : ∀ (items : List α) (index : Nat),
    (eachItem stop rule index items).value.length = items.length
  | [], _ => rfl
  | x :: rest, index => by
    rw [eachItem_cons, cons_eq]
    split
    · rfl
    · rw [List.length_cons, List.length_cons, length_eachItem stop rule rest]

/-- Elements that pass are passed over, and the run goes on behind them. -/
theorem eachItem_append (stop : Bool) (rest : List α) : ∀ {before : List α} (index : Nat),
    (∀ y ∈ before, (rule y).passes = true) →
      eachItem stop rule index (before ++ rest) =
        (eachItem stop rule (index + before.length) rest).map
          (before.map (fun y => (rule y).value) ++ ·)
  | [], _, _ => rfl
  | y :: before, index, h => by
    rw [List.forall_mem_cons] at h
    have hrest := eachItem_append stop rest (index + 1) h.2
    rw [List.cons_append, eachItem_cons, cons, eq_ok_of_passes h.1]
    have hok : ((ok (rule y).value).under (toString index)).map (fun y => (y, before ++ rest)) =
        ok ((rule y).value, before ++ rest) := rfl
    rw [hok, ok_andThen, hrest, List.length_cons, Nat.add_right_comm, Nat.add_assoc]
    rfl

theorem eachItem_of_passes {items : List α} (index : Nat)
    (h : ∀ y ∈ items, (rule y).passes = true) :
    eachItem stop rule index items = ok (items.map fun y => (rule y).value) := by
  have hend := eachItem_append stop [] index h
  rw [List.append_nil] at hend
  rw [hend, eachItem]
  exact congrArg ok (List.append_nil _)

end Elements

/-! ### Judging -/

/-- The outcome leaves the value as it is, and passes exactly if the condition holds. -/
structure Judges (x : Outcome α) (value : α) (condition : Prop) : Prop where
  value_eq : x.value = value
  passes_iff : x.passes = true ↔ condition

theorem judges_ok (value : α) : (ok value).Judges value True := ⟨rfl, by simp⟩

theorem judges_of_eq_ok {x : Outcome α} {value : α} (h : x = ok value) : x.Judges value True :=
  h ▸ judges_ok value

theorem judges_broken (value : α) (vs : List Violation) :
    (broken value vs).Judges value (vs = []) := ⟨rfl, passes_broken value vs⟩

namespace Judges

variable {x : Outcome α} {value : α} {p q : Prop}

theorem congr (h : x.Judges value p) (hpq : p ↔ q) : x.Judges value q :=
  ⟨h.value_eq, h.passes_iff.trans hpq⟩

/-- If the condition holds, nothing was found. -/
theorem eq_ok (h : x.Judges value p) (hp : p) : x = ok value := by
  rw [eq_ok_of_passes (h.passes_iff.mpr hp), h.value_eq]

theorem andThen (stop : Bool) {next : α → Outcome α} (h : x.Judges value p)
    (hn : (next value).Judges value q) : (x.andThen stop next).Judges value (p ∧ q) := by
  rw [← h.value_eq] at hn
  refine ⟨?_, by rw [passes_andThen, h.passes_iff, hn.passes_iff]⟩
  by_cases hs : (stop && !x.passes) = true
  · rw [Outcome.andThen, if_pos hs, h.value_eq]
  · rw [Outcome.andThen, if_neg hs, hn.value_eq, h.value_eq]

end Judges

theorem judges_inTurn (stop : Bool) {rule : σ → α → Outcome α} {value : α} {p : σ → Prop} :
    ∀ {ss : List σ}, (∀ s ∈ ss, (rule s value).Judges value (p s)) →
      (inTurn stop rule ss value).Judges value (∀ s ∈ ss, p s)
  | [], _ => (judges_ok value).congr (by simp)
  | s :: rest, h => by
    have hrest := judges_inTurn stop fun t ht => h t (List.mem_cons_of_mem s ht)
    exact ((h s List.mem_cons_self).andThen stop hrest).congr (List.forall_mem_cons).symm

end Outcome

/-! ### Judging by runs -/

namespace Run

variable {α β σ : Type} {stop whole : Bool}

/-- The run passes and, where a whole run is asked for, comes to its end. -/
def Clears (whole : Bool) (x : Run α) : Prop := x.passes = true ∧ (whole = true → x.breaksOff = false)

theorem clears_true {x : Run α} : x.Clears true ↔ x.Succeeds :=
  and_congr_right fun _ => forall_prop_of_true rfl

theorem clears_andThen (x : Run α) (next : α → Run α) :
    (x.andThen stop next).Clears whole ↔ x.Clears whole ∧ (next x.value).Clears whole := by
  rw [Clears, toOutcome_andThen, Outcome.passes_andThen, breaksOff_andThen, Clears, Clears]
  constructor
  · rintro ⟨⟨hx, hn⟩, hend⟩
    simp only [hx, Bool.not_true, Bool.and_false, Bool.not_false, Bool.true_and,
      Bool.or_eq_false_iff] at hend
    exact ⟨⟨hx, fun h => (hend h).1⟩, hn, fun h => (hend h).2⟩
  · rintro ⟨⟨hx, hxend⟩, hn, hnend⟩
    refine ⟨⟨hx, hn⟩, fun h => ?_⟩
    rw [hx, hxend h, hnend h, Bool.and_false, Bool.false_or]

theorem succeeds_andThen (x : Run α) (next : α → Run α) :
    (x.andThen stop next).Succeeds ↔ x.Succeeds ∧ (next x.value).Succeeds := by
  simp only [← clears_true, clears_andThen]

theorem succeeds_map (f : α → β) (x : Run α) : (x.map f).Succeeds ↔ x.Succeeds := Iff.rfl

theorem succeeds_under (key : String) (x : Run α) : (x.under key).Succeeds ↔ x.Succeeds :=
  and_congr_left fun _ => iff_of_eq (congrArg (· = true) (Outcome.passes_under key x.toOutcome))

/-- The run leaves the value as it is, and clears it exactly if the condition holds. -/
structure Judges (whole : Bool) (x : Run α) (value : α) (condition : Prop) : Prop where
  value_eq : x.value = value
  clears_iff : x.Clears whole ↔ condition

theorem judges_ok (value : α) : (ok value).Judges whole value True :=
  ⟨rfl, iff_true_intro ⟨rfl, fun _ => rfl⟩⟩

theorem judges_broken (whole : Bool) (value : α) (vs : List Violation) :
    (broken value vs).Judges whole value (vs = []) :=
  ⟨rfl, (and_iff_left fun _ => rfl).trans (Outcome.passes_broken value vs)⟩

/-- A run judges as its outcome does, if it may break off. -/
theorem judges_false_iff {x : Run α} {value : α} {p : Prop} :
    x.Judges false value p ↔ x.toOutcome.Judges value p :=
  ⟨fun h => ⟨h.value_eq, (and_iff_left nofun).symm.trans h.clears_iff⟩,
    fun h => ⟨h.value_eq, (and_iff_left nofun).trans h.passes_iff⟩⟩

namespace Judges

variable {x : Run α} {value : α} {p q : Prop}

theorem congr (h : x.Judges whole value p) (hpq : p ↔ q) : x.Judges whole value q :=
  ⟨h.value_eq, h.clears_iff.trans hpq⟩

/-- If the condition holds, a whole run is over with the value. -/
theorem eq_ok (h : x.Judges true value p) (hp : p) : x = ok value := by
  have hs := clears_true.mp (h.clears_iff.mpr hp)
  rw [hs.eq_ok, h.value_eq]

theorem map (f : α → β) (h : x.Judges whole value p) : (x.map f).Judges whole (f value) p :=
  ⟨congrArg f h.value_eq, h.clears_iff⟩

theorem under (key : String) (h : x.Judges whole value p) : (x.under key).Judges whole value p := by
  refine ⟨h.value_eq, Iff.trans ?_ h.clears_iff⟩
  rw [Clears, Clears, ← Outcome.passes_under key x.toOutcome]
  rfl

theorem andThen (stop : Bool) {next : α → Run α} (h : x.Judges whole value p)
    (hn : (next value).Judges whole value q) : (x.andThen stop next).Judges whole value (p ∧ q) := by
  rw [← h.value_eq] at hn
  refine ⟨?_, by rw [clears_andThen, h.clears_iff, hn.clears_iff]⟩
  rw [Run.andThen]
  split
  · exact h.value_eq
  · exact hn.value_eq.trans h.value_eq

end Judges

theorem judges_if {c p : Prop} [Decidable c] {x : Run α} {value : α}
    (h : c → x.Judges whole value p) : (if c then x else ok value).Judges whole value (c → p) := by
  by_cases hc : c
  · rw [if_pos hc]; exact (h hc).congr (by simp [hc])
  · rw [if_neg hc]; exact (judges_ok value).congr (by simp [hc])

theorem judges_unless {c p : Prop} [Decidable c] {x : Run α} {value : α}
    (h : ¬ c → x.Judges whole value p) : (if c then ok value else x).Judges whole value (¬ c → p) := by
  rw [← ite_not]
  exact judges_if h

theorem judges_cons {first : Run α} {x : α} {rest : List α} {others : List α → Run (List α)}
    {p q : Prop} (hx : first.Judges whole x p) (hrest : (others rest).Judges whole rest q) :
    (cons stop first rest others).Judges whole (x :: rest) (p ∧ q) := by
  have hpair : ((first.map fun x => (x, rest)).andThen stop fun parts =>
      (others parts.2).map fun rest => (parts.1, rest)).Judges whole (x, rest) (p ∧ q) :=
    (hx.map fun x => (x, rest)).andThen stop (hrest.map fun rest => (x, rest))
  exact hpair.map fun parts => parts.1 :: parts.2

theorem judges_inTurn {rule : σ → α → Run α} {value : α} {p : σ → Prop} : ∀ {ss : List σ},
    (∀ s ∈ ss, (rule s value).Judges whole value (p s)) →
      (inTurn stop rule ss value).Judges whole value (∀ s ∈ ss, p s)
  | [], _ => (judges_ok value).congr (by simp)
  | s :: rest, h => by
    have hrest := judges_inTurn fun t ht => h t (List.mem_cons_of_mem s ht)
    exact ((h s List.mem_cons_self).andThen stop hrest).congr List.forall_mem_cons.symm

theorem judges_eachItem (stop : Bool) {rule : α → Run α} {p : α → Prop} : ∀ {items : List α} (index : Nat),
    (∀ x ∈ items, (rule x).Judges whole x (p x)) →
      (eachItem stop rule index items).Judges whole items (∀ x ∈ items, p x)
  | [], _, _ => (judges_ok []).congr (by simp)
  | x :: rest, index, h => by
    have hrest := judges_eachItem stop (index + 1) fun y hy => h y (List.mem_cons_of_mem x hy)
    rw [eachItem_cons]
    exact (judges_cons ((h x List.mem_cons_self).under _) hrest).congr List.forall_mem_cons.symm

theorem judges_eachMember {rule : String → α → Run α} {p : String × α → Prop} :
    ∀ {members : List (String × α)}, (∀ e ∈ members, (rule e.1 e.2).Judges whole e.2 (p e)) →
      (eachMember stop rule members).Judges whole members (∀ e ∈ members, p e)
  | [], _ => (judges_ok []).congr (by simp)
  | (k, x) :: rest, h => by
    have hx := ((h (k, x) List.mem_cons_self).under k).map (Prod.mk k)
    have hrest := judges_eachMember fun e he => h e (List.mem_cons_of_mem (k, x) he)
    rw [eachMember_cons]
    exact (judges_cons hx hrest).congr List.forall_mem_cons.symm

theorem judges_atMember {key : String} {rule : α → Run α} {p : α → Prop} :
    ∀ {members : List (String × α)},
      (∀ x, Entries.get? members key = some x → (rule x).Judges whole x (p x)) →
        (atMember key rule members).Judges whole members
          (∀ x, Entries.get? members key = some x → p x)
  | [], _ => (judges_ok []).congr (by simp)
  | (k, x) :: rest, h => by
    rw [atMember]
    simp only [Entries.get?_cons] at h ⊢
    by_cases hk : k = key
    · simp only [if_pos hk, Option.some.injEq, forall_eq'] at h ⊢
      exact (h.under key).map fun x => (k, x) :: rest
    · simp only [if_neg hk] at h ⊢
      exact (judges_atMember h).map ((k, x) :: ·)

end Run

end DataSchema
