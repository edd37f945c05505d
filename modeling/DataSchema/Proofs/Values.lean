import DataSchema.Json.Reader
import DataSchema.Path.Basic

/-!
Values: their forms, the places in them, induction along them, and their keys.

The parts of a value are its elements or the values of its members. A value is *well-keyed* when none of
its objects, at any depth, has a key twice; so is every value that is read from a text. `everyObject` asks
about the members of each object at any depth.
-/

namespace DataSchema.Json

/-! ### Forms -/

/-- A value without parts. -/
def isScalar : Json → Bool
  | .array _ => false
  | .object _ => false
  | _ => true

/-- Two scalars, two arrays of one length, or two objects. -/
inductive SameForm : Json → Json → Prop where
  | scalar {x y : Json} : x.isScalar = true → y.isScalar = true → SameForm x y
  | array {xs ys : List Json} : xs.length = ys.length → SameForm (.array xs) (.array ys)
  | object {ms ns : List (String × Json)} : SameForm (.object ms) (.object ns)

theorem SameForm.refl (x : Json) : x.SameForm x := by
  cases x with
  | array xs => exact .array rfl
  | object ms => exact .object
  | null => exact .scalar rfl rfl
  | bool b => exact .scalar rfl rfl
  | number n => exact .scalar rfl rfl
  | string s => exact .scalar rfl rfl

theorem SameForm.isScalar_eq {x y : Json} (h : x.SameForm y) : x.isScalar = y.isScalar := by
  cases h with
  | scalar hx hy => rw [hx, hy]
  | array _ => rfl
  | object => rfl

theorem SameForm.trans {x y z : Json} (h : x.SameForm y) (h' : y.SameForm z) : x.SameForm z := by
  cases h with
  | scalar hx hy => exact .scalar hx (h'.isScalar_eq ▸ hy)
  | array hlen =>
    cases h' with
    | scalar hy _ => cases hy
    | array hlen' => exact .array (hlen.trans hlen')
  | object =>
    cases h' with
    | scalar hy _ => cases hy
    | object => exact .object

/-! ### Places -/

/-- The part of a value that one step leads to. -/
def step? (value : Json) : Step → Option Json
  | .key name => value.member? name
  | .index i =>
    match value with
    | .array items => items[i]?
    | _ => none

/-- The part of a value that a path leads to. -/
def at? (value : Json) : Path → Option Json
  | [] => some value
  | step :: rest => (value.step? step).bind (·.at? rest)

theorem at?_cons_eq_some {value part : Json} {step : Step} {rest : Path} :
    value.at? (step :: rest) = some part ↔
      ∃ next, value.step? step = some next ∧ next.at? rest = some part := Option.bind_eq_some_iff

theorem isSome_at?_cons {value : Json} {step : Step} {rest : Path} :
    (value.at? (step :: rest)).isSome ↔
      ∃ next, value.step? step = some next ∧ (next.at? rest).isSome := by
  rw [at?]
  cases value.step? step <;> simp

theorem step?_of_isScalar {value : Json} (h : value.isScalar = true) (step : Step) :
    value.step? step = none := by
  cases value with
  | array items => cases h
  | object members => cases h
  | _ => cases step <;> rfl

/-! ### Induction -/

/-- What holds of a value whenever it holds of its parts holds of every value. -/
@[elab_as_elim]
theorem induction {motive : Json → Prop} (scalar : ∀ x, x.isScalar = true → motive x)
    (array : ∀ xs, (∀ x ∈ xs, motive x) → motive (.array xs))
    (object : ∀ ms, (∀ e ∈ ms, motive e.2) → motive (.object ms)) : ∀ x, motive x
  | .null => scalar _ rfl
  | .bool _ => scalar _ rfl
  | .number _ => scalar _ rfl
  | .string _ => scalar _ rfl
  | .array xs => array xs fun x _ => induction scalar array object x
  | .object ms => object ms fun e _ => induction scalar array object e.2
termination_by x => sizeOf x
decreasing_by
  · have hlt := List.sizeOf_lt_of_mem ‹x ∈ xs›
    rw [Json.array.sizeOf_spec]
    omega
  · have hlt := List.sizeOf_lt_of_mem ‹e ∈ ms›
    have hpair : sizeOf e = 1 + sizeOf e.1 + sizeOf e.2 := Prod.mk.sizeOf_spec e.1 e.2
    rw [Json.object.sizeOf_spec]
    omega

/-! ### Every object -/

mutual

/-- Does the test hold of the members of every object in the value, at any depth? -/
def everyObject (p : List (String × Json) → Bool) : Json → Bool
  | .array xs => everyItem p xs
  | .object ms => p ms && everyMember p ms
  | _ => true

def everyItem (p : List (String × Json) → Bool) : List Json → Bool
  | [] => true
  | x :: rest => everyObject p x && everyItem p rest

def everyMember (p : List (String × Json) → Bool) : List (String × Json) → Bool
  | [] => true
  | (_, x) :: rest => everyObject p x && everyMember p rest

end

section EveryObject

variable {p : List (String × Json) → Bool}

theorem everyObject_scalar {x : Json} (h : x.isScalar = true) : everyObject p x = true := by
  cases x with
  | array xs => cases h
  | object ms => cases h
  | _ => rfl

theorem everyObject_array : ∀ {xs : List Json},
    everyObject p (.array xs) = true ↔ ∀ x ∈ xs, everyObject p x = true
  | [] => iff_of_true rfl nofun
  | x :: rest => by
    have hrest := @everyObject_array rest
    rw [everyObject] at hrest ⊢
    rw [everyItem, Bool.and_eq_true, hrest, List.forall_mem_cons]

theorem everyMember_iff : ∀ {ms : List (String × Json)},
    everyMember p ms = true ↔ ∀ e ∈ ms, everyObject p e.2 = true
  | [] => iff_of_true rfl nofun
  | (_, x) :: rest => by
    rw [everyMember, Bool.and_eq_true, everyMember_iff, List.forall_mem_cons]

theorem everyObject_object {ms : List (String × Json)} : everyObject p (.object ms) = true ↔
    p ms = true ∧ ∀ e ∈ ms, everyObject p e.2 = true := by
  rw [everyObject, Bool.and_eq_true, everyMember_iff]

theorem everyObject_mono {q : List (String × Json) → Bool} {x : Json}
    (hpq : ∀ ms, p ms = true → q ms = true) (h : everyObject p x = true) : everyObject q x = true := by
  induction x using Json.induction with
  | scalar x hx => exact everyObject_scalar hx
  | array xs ih =>
    rw [everyObject_array] at h ⊢
    exact fun x hx => ih x hx (h x hx)
  | object ms ih =>
    rw [everyObject_object] at h ⊢
    exact ⟨hpq ms h.1, fun e he => ih e he (h.2 e he)⟩

end EveryObject

/-! ### Keys -/

/-- No object in the value has a key twice. -/
inductive WellKeyed : Json → Prop where
  | scalar {x : Json} : x.isScalar = true → WellKeyed x
  | array {xs : List Json} : (∀ x ∈ xs, WellKeyed x) → WellKeyed (.array xs)
  | object {ms : List (String × Json)} : (Entries.keys ms).Nodup → (∀ e ∈ ms, WellKeyed e.2) →
    WellKeyed (.object ms)

theorem WellKeyed.items {xs : List Json} (h : WellKeyed (.array xs)) : ∀ x ∈ xs, x.WellKeyed := by
  cases h with
  | scalar hs => cases hs
  | array hxs => exact hxs

theorem WellKeyed.keys {ms : List (String × Json)} (h : WellKeyed (.object ms)) :
    (Entries.keys ms).Nodup := by
  cases h with
  | scalar hs => cases hs
  | object hkeys _ => exact hkeys

theorem WellKeyed.members {ms : List (String × Json)} (h : WellKeyed (.object ms)) :
    ∀ e ∈ ms, e.2.WellKeyed := by
  cases h with
  | scalar hs => cases hs
  | object _ hms => exact hms

mutual

def isWellKeyed : Json → Bool
  | .array xs => areWellKeyed xs
  | .object ms => decide (Entries.keys ms).Nodup && haveWellKeyed ms
  | _ => true

def areWellKeyed : List Json → Bool
  | [] => true
  | x :: rest => isWellKeyed x && areWellKeyed rest

def haveWellKeyed : List (String × Json) → Bool
  | [] => true
  | (_, x) :: rest => isWellKeyed x && haveWellKeyed rest

end

theorem areWellKeyed_iff : ∀ xs : List Json,
    areWellKeyed xs = true ↔ ∀ x ∈ xs, isWellKeyed x = true
  | [] => by simp [areWellKeyed]
  | x :: rest => by
    rw [areWellKeyed, Bool.and_eq_true, areWellKeyed_iff rest, List.forall_mem_cons]

theorem haveWellKeyed_iff : ∀ ms : List (String × Json),
    haveWellKeyed ms = true ↔ ∀ e ∈ ms, isWellKeyed e.2 = true
  | [] => by simp [haveWellKeyed]
  | (k, x) :: rest => by
    rw [haveWellKeyed, Bool.and_eq_true, haveWellKeyed_iff rest, List.forall_mem_cons]

theorem isWellKeyed_iff (x : Json) : isWellKeyed x = true ↔ x.WellKeyed := by
  induction x using Json.induction with
  | scalar x hx =>
    refine iff_of_true ?_ (.scalar hx)
    cases x <;> first | rfl | cases hx
  | array xs ih =>
    rw [isWellKeyed, areWellKeyed_iff, forall₂_congr ih]
    exact ⟨.array, WellKeyed.items⟩
  | object ms ih =>
    rw [isWellKeyed, Bool.and_eq_true, decide_eq_true_iff, haveWellKeyed_iff, forall₂_congr ih]
    exact ⟨fun h => .object h.1 h.2, fun h => ⟨h.keys, h.members⟩⟩

instance : DecidablePred WellKeyed := fun x => decidable_of_iff _ (isWellKeyed_iff x)

theorem wellKeyed_ofList {ms : List (String × Json)} (h : ∀ e ∈ ms, e.2.WellKeyed) :
    WellKeyed (.object (Entries.ofList ms)) := by
  have hput : ∀ put : List (String × Json), WellKeyed (.object put) →
      WellKeyed (.object (ms.foldl (fun put e => Entries.put put e.1 e.2) put)) := by
    induction ms with
    | nil => exact fun _ hput => hput
    | cons e rest ih =>
      rw [List.forall_mem_cons] at h
      intro put hput
      refine ih h.2 _ (.object (Entries.nodup_keys_put hput.keys e.1 e.2) fun e' he' => ?_)
      rcases Entries.mem_put he' with rfl | hold
      · exact h.1
      · exact hput.members e' hold
  exact hput [] (.object List.nodup_nil nofun)

mutual

theorem wellKeyed_collapse : ∀ x : Json, (collapse x).WellKeyed
  | .null => .scalar rfl
  | .bool _ => .scalar rfl
  | .number _ => .scalar rfl
  | .string _ => .scalar rfl
  | .array xs => .array (wellKeyed_collapseItems xs)
  | .object ms => wellKeyed_ofList (wellKeyed_collapseMembers ms)

theorem wellKeyed_collapseItems : ∀ xs : List Json, ∀ x ∈ collapseItems xs, x.WellKeyed
  | [] => nofun
  | x :: rest => List.forall_mem_cons.mpr ⟨wellKeyed_collapse x, wellKeyed_collapseItems rest⟩

theorem wellKeyed_collapseMembers :
    ∀ ms : List (String × Json), ∀ e ∈ collapseMembers ms, e.2.WellKeyed
  | [] => nofun
  | (_, x) :: rest => List.forall_mem_cons.mpr ⟨wellKeyed_collapse x, wellKeyed_collapseMembers rest⟩

end

/-- Whatever is read from a text is well-keyed. -/
theorem wellKeyed_ofText? {text : String} {x : Json} (h : ofText? text = some x) : x.WellKeyed := by
  obtain ⟨raw, _, rfl⟩ := Option.map_eq_some_iff.mp h
  exact wellKeyed_collapse raw

end DataSchema.Json
