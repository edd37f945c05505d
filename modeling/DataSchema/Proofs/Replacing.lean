import DataSchema.Access.Update

/-!
One step of a replacement.

A replacement walks down a path. At each step it either meets an obstacle, which depends on nothing but
the step and the value there, or it goes on at the part that the step leads to and then puts what comes
back into the container, made anew (`Shared.place_cons`). So whatever is to be said of a replacement along
a path is said of one refilled container first, and then follows by induction on the path.
-/

namespace DataSchema

namespace Shared

/-! ### Values without their numbers -/

theorem itemsToJson_eq : ∀ items : List Shared, itemsToJson items = items.map toJson
  | [] => rfl
  | x :: rest => by rw [itemsToJson, itemsToJson_eq rest, List.map_cons]

theorem membersToJson_eq : ∀ members : List (String × Shared),
    membersToJson members = Entries.mapValues toJson members
  | [] => rfl
  | (_, x) :: rest => by
    rw [membersToJson, membersToJson_eq rest]
    rfl

/-! ### What a step meets -/

theorem object_of_step? {x part : Shared} {name : String} (h : x.step? (.key name) = some part) :
    ∃ id members, x = .object id members ∧ Entries.get? members name = some part := by
  cases x with
  | object id members => exact ⟨id, members, rfl, h⟩
  | _ => cases h

theorem array_of_step? {x part : Shared} {i : Nat} (h : x.step? (.index i) = some part) :
    ∃ id items, x = .array id items ∧ items[i]? = some part := by
  cases x with
  | array id items => exact ⟨id, items, rfl, h⟩
  | _ => cases h

/-- The members of what there is, if it is an object. -/
def membersOf (current : Option Shared) : List (String × Shared) :=
  (current.bind (·.members?)).getD []

/-- The elements of what there is, if it is an array. -/
def itemsOf (current : Option Shared) : List Shared := (current.bind (·.items?)).getD []

/-- The elements, with nulls behind them as far as the index. -/
def extended (items : List Shared) (i : Nat) : List Shared :=
  items ++ List.replicate (i + 1 - items.length) .null

/-- Can a replacement take the step from the value? From a null it can take any. -/
def takes : Shared → Step → Bool
  | .null, _ => true
  | .object _ _, .key _ => true
  | .array _ _, .index _ => true
  | _, _ => false

/-- A value from which the step cannot be taken. -/
def mismatch? (current : Option Shared) (step : Step) : Option AccessError :=
  (current.filter (!·.takes step)).map fun x => .notAContainer [] x.kindName

/-- An index that lies too far beyond the elements there are. -/
def overrun? (current : Option Shared) : Step → Option AccessError
  | .key _ => none
  | .index i =>
    if i > (itemsOf current).length + maxPadding then
      some (.indexTooFar [.index i] i (itemsOf current).length)
    else none

/-- What keeps a replacement from taking the step, as seen from the value that the step leads out of. -/
def obstacle? (current : Option Shared) (step : Step) : Option AccessError :=
  (mismatch? current step).or (overrun? current step)

/-- The container that a replacement makes of what there is, with a part put in where the step leads. -/
def refilled (fresh : Nat) (current : Option Shared) (step : Step) (part : Shared) : Shared :=
  match step with
  | .key name => .object fresh (Entries.put (membersOf current) name part)
  | .index i => .array fresh ((extended (itemsOf current) i).set i part)

variable {fresh : Nat} {current : Option Shared} {step other : Step} {part value new : Shared}
  {path : Path}

/-- What is missing and what is null are filled alike. -/
theorem place_null (fresh : Nat) (path : Path) (value : Shared) :
    place fresh path (some .null) value = place fresh path none value := by
  cases path with
  | nil => rfl
  | cons step rest => cases step <;> rfl

theorem length_extended (items : List Shared) (i : Nat) :
    (extended items i).length = max items.length (i + 1) := by
  rw [extended, List.length_append, List.length_replicate]
  omega

theorem getElem?_extended (items : List Shared) (i j : Nat) :
    (extended items i)[j]? = if items.length ≤ j ∧ j ≤ i then some .null else items[j]? := by
  by_cases h : j < items.length
  · rw [extended, List.getElem?_append_left h, if_neg (by omega)]
  · rw [extended, List.getElem?_append_right (by omega), List.getElem?_replicate,
      List.getElem?_eq_none (l := items) (by omega)]
    simp only [show j - items.length < i + 1 - items.length ↔ items.length ≤ j ∧ j ≤ i by omega]

theorem place_extended (fresh : Nat) (path : Path) (items : List Shared) (i : Nat)
    (value : Shared) :
    place fresh path (extended items i)[i]? value = place fresh path items[i]? value := by
  rw [getElem?_extended]
  split
  · rw [place_null, List.getElem?_eq_none (by omega)]
  · rfl

theorem membersToChange_eq (current : Option Shared) (name : String) :
    membersToChange current =
      (mismatch? current (.key name)).elim (.ok (membersOf current)) .error := by
  cases current with
  | none => rfl
  | some x => cases x <;> rfl

theorem itemsToChange_eq (current : Option Shared) (i : Nat) :
    itemsToChange current =
      (mismatch? current (.index i)).elim (.ok (itemsOf current)) .error := by
  cases current with
  | none => rfl
  | some x => cases x <;> rfl

theorem padded_eq (current : Option Shared) (i : Nat) :
    padded (itemsOf current) i =
      (overrun? current (.index i)).elim (.ok (extended (itemsOf current) i)) .error := by
  rw [padded, overrun?]
  split <;> rfl

theorem get?_membersOf (current : Option Shared) (name : String) :
    Entries.get? (membersOf current) name = current.bind (·.step? (.key name)) := by
  cases current with
  | none => rfl
  | some x => cases x <;> rfl

theorem getElem?_itemsOf (current : Option Shared) (i : Nat) :
    (itemsOf current)[i]? = current.bind (·.step? (.index i)) := by
  cases current with
  | none => rfl
  | some x => cases x <;> rfl

/-- A replacement along a path meets an obstacle at the first step, or goes on at what the step leads to
and refills the container with what comes back. -/
theorem place_cons (fresh : Nat) (step : Step) (path : Path) (current : Option Shared)
    (value : Shared) :
    place fresh (step :: path) current value =
      (obstacle? current step).elim
        (((place (fresh + 1) path (current.bind (·.step? step)) value).mapError
          (·.under step)).map (refilled fresh current step)) .error := by
  cases step with
  | key name =>
    rw [place, membersToChange_eq current name, obstacle?]
    cases mismatch? current (.key name) with
    | some e => rfl
    | none =>
      rw [← get?_membersOf]
      rfl
  | index i =>
    rw [place, itemsToChange_eq current i, obstacle?]
    cases mismatch? current (.index i) with
    | some e => rfl
    | none =>
      simp only [Option.elim_none, bind, Except.bind, padded_eq]
      cases overrun? current (.index i) with
      | some e => rfl
      | none =>
        simp only [Option.elim_none, place_extended, getElem?_itemsOf]
        rfl

theorem place_cons_eq_ok_iff :
    place fresh (step :: path) current value = .ok new ↔ obstacle? current step = none ∧
      ∃ part, place (fresh + 1) path (current.bind (·.step? step)) value = .ok part ∧
        new = refilled fresh current step part := by
  rw [place_cons]
  cases obstacle? current step with
  | some e => simp
  | none =>
    cases place (fresh + 1) path (current.bind (·.step? step)) value with
    | error e => exact ⟨nofun, fun ⟨_, _, h, _⟩ => nomatch h⟩
    | ok part =>
      constructor
      · rintro ⟨⟩
        exact ⟨rfl, part, rfl, rfl⟩
      · rintro ⟨_, _, ⟨⟩, rfl⟩
        rfl

/-! ### What is left in a refilled container -/

/-- The second step leads to one of the nulls that a refill at the first one puts behind the elements. -/
def Pads (current : Option Shared) (step other : Step) : Prop :=
  ∃ i j, step = .index i ∧ other = .index j ∧ (itemsOf current).length ≤ j ∧ j < i

theorem Pads.missing (h : Pads current step other) : current.bind (·.step? other) = none := by
  obtain ⟨i, j, rfl, rfl, hj, _⟩ := h
  rw [← getElem?_itemsOf, List.getElem?_eq_none hj]

theorem step?_refilled (fresh : Nat) (current : Option Shared) (step : Step) (part : Shared) :
    (refilled fresh current step part).step? step = some part := by
  cases step with
  | key name => simp [refilled, step?, member?, members?, Entries.get?_put]
  | index i =>
    have hlength : i < (extended (itemsOf current) i).length := by rw [length_extended]; omega
    simp [refilled, step?, item?, items?, List.getElem?_set_self hlength]

/-- A refill changes no other part; all it can add are nulls. -/
theorem step?_refilled_of_ne (hstep : obstacle? current step = none) (hne : other ≠ step) :
    (refilled fresh current step part).step? other = current.bind (·.step? other) ∨
      Pads current step other ∧ (refilled fresh current step part).step? other = some .null := by
  have hmatch : current.filter (!·.takes step) = none := by
    have hmismatch := (Option.or_eq_none_iff.mp hstep).1
    simpa [mismatch?] using hmismatch
  cases step with
  | key name =>
    left
    cases other with
    | key name' =>
      have hname : name ≠ name' := fun h => hne (h ▸ rfl)
      simp [refilled, step?, member?, members?, Entries.get?_put, hname, get?_membersOf]
    | index j =>
      rcases current with _ | x
      · rfl
      · cases x <;> simp_all [takes, refilled, step?, item?, items?]
  | index i =>
    cases other with
    | key name =>
      left
      rcases current with _ | x
      · rfl
      · cases x <;> simp_all [takes, refilled, step?, member?, members?]
    | index j =>
      have hij : i ≠ j := fun h => hne (h ▸ rfl)
      have hpart : (refilled fresh current (.index i) part).step? (.index j) =
          (extended (itemsOf current) i)[j]? := by
        simp [refilled, step?, item?, items?, List.getElem?_set_ne hij]
      rw [hpart, getElem?_extended]
      by_cases hj : (itemsOf current).length ≤ j ∧ j ≤ i
      · exact .inr ⟨⟨i, j, rfl, rfl, hj.1, by omega⟩, if_pos hj⟩
      · exact .inl (by rw [if_neg hj, getElem?_itemsOf])

/-- From where there is a part, the step can be taken. -/
theorem obstacle?_of_step? {x part : Shared} (h : x.step? step = some part) :
    obstacle? (some x) step = none := by
  cases step with
  | key name =>
    obtain ⟨id, members, rfl, _⟩ := object_of_step? h
    rfl
  | index i =>
    obtain ⟨id, items, rfl, hi⟩ := array_of_step? h
    have hlt := (List.getElem?_eq_some_iff.mp hi).1
    have hreach : ¬ i > items.length + maxPadding := by omega
    exact if_neg hreach

theorem obstacle?_refilled (fresh : Nat) (current : Option Shared) (step : Step) (part : Shared) :
    obstacle? (some (refilled fresh current step part)) step = none :=
  obstacle?_of_step? (step?_refilled fresh current step part)

theorem extended_of_lt {items : List Shared} {i : Nat} (h : i < items.length) :
    extended items i = items := by
  rw [extended, Nat.sub_eq_zero_of_le h, List.replicate_zero, List.append_nil]

/-- A container refilled with the part that it has is the same but for the numbers. -/
theorem toJson_refilled {x old : Shared} (hold : x.step? step = some old)
    (hpart : part.toJson = old.toJson) : (refilled fresh (some x) step part).toJson = x.toJson := by
  cases step with
  | key name =>
    obtain ⟨id, members, rfl, hget⟩ := object_of_step? hold
    have hmapped : Entries.get? (Entries.mapValues toJson members) name = some part.toJson := by
      rw [Entries.get?_mapValues, hget, hpart, Option.map_some]
    change Json.object (membersToJson (Entries.put members name part)) = .object (membersToJson members)
    rw [membersToJson_eq, membersToJson_eq, Entries.mapValues_put, Entries.put_of_get? hmapped]
  | index i =>
    obtain ⟨id, items, rfl, hget⟩ := array_of_step? hold
    obtain ⟨hlt, rfl⟩ := List.getElem?_eq_some_iff.mp hget
    change Json.array (itemsToJson ((extended items i).set i part)) = .array (itemsToJson items)
    rw [itemsToJson_eq, itemsToJson_eq, extended_of_lt hlt, List.map_set, hpart, ← List.map_set,
      List.set_getElem_self]

/-- Of two refills at one place the second one counts. -/
theorem toJson_refilled_refilled {first second part : Shared} (fresh fresh' fresh'' : Nat)
    (hpart : second.toJson = part.toJson) :
    (refilled fresh' (some (refilled fresh current step first)) step second).toJson =
      (refilled fresh'' current step part).toJson := by
  cases step with
  | key name =>
    change Json.object (membersToJson (Entries.put (Entries.put (membersOf current) name first) name
      second)) = .object (membersToJson (Entries.put (membersOf current) name part))
    rw [membersToJson_eq, membersToJson_eq, Entries.put_put, Entries.mapValues_put,
      Entries.mapValues_put, hpart]
  | index i =>
    have hlt : i < ((extended (itemsOf current) i).set i first).length := by
      rw [List.length_set, length_extended]
      omega
    change Json.array (itemsToJson ((extended ((extended (itemsOf current) i).set i first) i).set i
      second)) = .array (itemsToJson ((extended (itemsOf current) i).set i part))
    rw [extended_of_lt hlt, List.set_set, itemsToJson_eq, itemsToJson_eq, List.map_set, List.map_set,
      hpart]

end Shared

end DataSchema
