import DataSchema.Proofs.Order

/-!
Equivalent values, and values that are the same.

Equivalence of values is transitive, and symmetric where no key stands twice (`Json.equivalent_trans`,
`Json.equivalent_symm`): every member of the left object is found on the right, and as there are as many
members on both sides, none is left over there. Values that are the same are equivalent, hence equivalent
to the same values (`Json.equivalent_congr_of_same`). So it is an equivalence relation of the values in
which no key stands twice, and what it says of two values is told by their parts, whatever the order of
members (`Json.equivalent_lawful`).
-/

namespace DataSchema

theorem Binary64.equals_iff {x y : Binary64} : x.equals y = true ↔ x.units = y.units := beq_iff_eq

theorem Number.units_eq_of_same {m n : Number} (h : m.same n = true) :
    m.toDouble.units = n.toDouble.units := by
  cases m with
  | whole m =>
    cases n with
    | whole n =>
      rw [Number.same, beq_iff_eq] at h
      rw [toDouble, toDouble, Whole.toDouble, Whole.toDouble, h]
    | double y => cases h
  | double x =>
    cases n with
    | whole n => cases h
    | double y => exact Binary64.equals_iff.mp h

namespace Json

/-! ### Equivalence -/

/-- What is equivalent to a scalar is equivalent to the same values. -/
theorem equivalent_left_of_isScalar {x y : Json} (hx : x.isScalar = true)
    (h : equivalent x y = true) (z : Json) : equivalent x z = equivalent y z := by
  cases x with
  | array xs => cases hx
  | object ms => cases hx
  | null => cases y <;> first | rfl | cases h
  | bool a =>
    cases y with
    | bool b => rw [equivalent, beq_iff_eq] at h; rw [h]
    | _ => cases h
  | string s =>
    cases y with
    | string t => rw [equivalent, beq_iff_eq] at h; rw [h]
    | _ => cases h
  | number m =>
    cases y with
    | number n =>
      rw [equivalent, Binary64.equals_iff] at h
      cases z with
      | number k => rw [equivalent, equivalent, Binary64.equals, Binary64.equals, h]
      | _ => rfl
    | _ => cases h

theorem equivalent_symm_of_isScalar {x y : Json} (hx : x.isScalar = true)
    (h : equivalent x y = true) : equivalent y x = true := by
  rw [← equivalent_left_of_isScalar hx h x]
  cases x with
  | array xs => cases hx
  | object ms => cases hx
  | _ => simp [equivalent, Binary64.equals]

theorem equivalent_trans (x : Json) : ∀ {y z : Json}, equivalent x y = true →
    equivalent y z = true → equivalent x z = true := by
  induction x using Json.induction with
  | scalar x hx =>
    intro y z hxy hyz
    rw [equivalent_left_of_isScalar hx hxy, hyz]
  | array xs ih =>
    intro y z hxy hyz
    cases y with
    | array ys =>
      cases z with
      | array zs =>
        rw [equivalent_array] at hxy hyz ⊢
        induction hxy generalizing zs with
        | nil => exact hyz
        | cons hx _ ihs =>
          rw [List.forall_mem_cons] at ih
          cases hyz with
          | cons hy hrest => exact .cons (ih.1 hx hy) (ihs ih.2 _ hrest)
      | _ => cases hyz
    | _ => cases hxy
  | object ms ih =>
    intro y z hxy hyz
    cases y with
    | object ns =>
      cases z with
      | object ks =>
        rw [equivalent_object] at hxy hyz ⊢
        refine ⟨hxy.1.trans hyz.1, fun e he => ?_⟩
        obtain ⟨y, hy, hey⟩ := hxy.2 e he
        obtain ⟨z, hz, hyz⟩ := hyz.2 (e.1, y) (Entries.mem_of_get? hy)
        exact ⟨z, hz, ih e he hey hyz⟩
      | _ => cases hyz
    | _ => cases hxy

theorem equivalent_symm (x : Json) (hkeyed : x.WellKeyed) : ∀ {y : Json}, equivalent x y = true →
    equivalent y x = true := by
  induction x using Json.induction with
  | scalar x hx => exact equivalent_symm_of_isScalar hx
  | array xs ih =>
    intro y hxy
    cases y with
    | array ys =>
      rw [equivalent_array] at hxy ⊢
      exact (forall₂_imp hxy fun x hx y => ih x hx (hkeyed.items x hx)).flip
    | _ => cases hxy
  | object ms ih =>
    intro y hxy
    cases y with
    | object ns =>
      have hmembers := (equivalent_object_iff_rearranged hkeyed.keys).mp hxy
      have hturned : Entries.Rearranged (fun x y => equivalent y x = true) ms ns :=
        hmembers.imp fun key x _ hx => ih (key, x) hx (hkeyed.members _ hx)
      exact (equivalent_object_iff_rearranged hmembers.right).mpr hturned.symm
    | _ => cases hxy

/-! ### Sameness -/

theorem sameItems_iff : ∀ xs ys : List Json,
    sameItems xs ys = true ↔ List.Forall₂ (fun x y => same x y = true) xs ys
  | [], [] => by simp [sameItems]
  | [], _ :: _ => by simp [sameItems]
  | _ :: _, [] => by simp [sameItems]
  | x :: xs, y :: ys => by
    rw [sameItems, Bool.and_eq_true, List.forall₂_cons, sameItems_iff xs ys]

theorem sameMembers_iff (ns ms : List (String × Json)) :
    sameMembers ms ns = true ↔
      ∀ e ∈ ms, ∃ y, Entries.get? ns e.1 = some y ∧ same e.2 y = true := by
  induction ms with
  | nil => simp [sameMembers]
  | cons e rest ih =>
    obtain ⟨key, x⟩ := e
    rw [sameMembers, Bool.and_eq_true, ih, List.forall_mem_cons]
    cases Entries.get? ns key <;> simp

/-- A value in which no key stands twice is the same as itself. -/
theorem same_self (x : Json) : x.WellKeyed → same x x = true := by
  induction x using Json.induction with
  | scalar x hx =>
    intro _
    cases x with
    | array xs => cases hx
    | object ms => cases hx
    | number n => cases n <;> simp [same, Number.same, Binary64.equals]
    | _ => simp [same]
  | array xs ih =>
    intro hkeyed
    rw [same, sameItems_iff]
    exact List.forall₂_same.mpr fun x hx => ih x hx (hkeyed.items x hx)
  | object ms ih =>
    intro hkeyed
    rw [same, Bool.and_eq_true, beq_iff_eq, sameMembers_iff]
    refine ⟨rfl, fun e he => ⟨e.2, Entries.get?_of_mem hkeyed.keys he, ?_⟩⟩
    exact ih e he (hkeyed.members e he)

theorem equivalent_of_same (x : Json) : ∀ {y : Json}, same x y = true → equivalent x y = true := by
  induction x using Json.induction with
  | scalar x hx =>
    intro y h
    cases x with
    | array xs => cases hx
    | object ms => cases hx
    | number m =>
      cases y with
      | number n => exact Binary64.equals_iff.mpr (Number.units_eq_of_same h)
      | _ => cases h
    | _ => cases y <;> exact h
  | array xs ih =>
    intro y h
    cases y with
    | array ys =>
      rw [same, sameItems_iff] at h
      exact (equivalent_array xs ys).mpr (forall₂_imp h fun x hx y => ih x hx)
    | _ => cases h
  | object ms ih =>
    intro y h
    cases y with
    | object ns =>
      rw [same, Bool.and_eq_true, beq_iff_eq, sameMembers_iff] at h
      refine (equivalent_object ms ns).mpr ⟨h.1, fun e he => ?_⟩
      obtain ⟨y, hy, hsame⟩ := h.2 e he
      exact ⟨y, hy, ih e he hsame⟩
    | _ => cases h

/-- Values that are the same are equivalent to the same values. -/
theorem equivalent_congr_of_same {x y : Json} (hkeyed : x.WellKeyed) (h : same x y = true) (z : Json) :
    equivalent x z = true ↔ equivalent y z = true := by
  have hxy := equivalent_of_same x h
  exact ⟨equivalent_trans y (equivalent_symm x hkeyed hxy), equivalent_trans x hxy⟩

/-! ### The laws of equivalence -/

theorem equivalent_self (x : Json) (hkeyed : x.WellKeyed) : equivalent x x = true :=
  equivalent_of_same x (same_self x hkeyed)

/-- A scalar is equivalent to itself alone, but a number to all that are the same double. -/
theorem equivalent_scalar_iff {x : Json} (hx : x.isScalar = true) (y : Json) :
    equivalent x y = true ↔
      x = y ∨ ∃ m n, x = .number m ∧ y = .number n ∧ m.toDouble.units = n.toDouble.units := by
  cases x with
  | array xs => cases hx
  | object ms => cases hx
  | number m =>
    cases y with
    | number n =>
      rw [equivalent, Binary64.equals_iff]
      constructor
      · exact fun hunits => .inr ⟨m, n, rfl, rfl, hunits⟩
      · rintro (⟨⟨⟩⟩ | ⟨_, _, ⟨⟩, ⟨⟩, hunits⟩)
        · rfl
        · exact hunits
    | _ => simp [equivalent]
  | _ => cases y <;> simp [equivalent]

/-- Equivalence is an equivalence relation of the values in which no key stands twice. The order of
members, at any depth of either value, makes no difference to it. Scalars are equivalent if they are equal
or numbers that are the same double, arrays if they are of one length and have equivalent elements in each
place, and objects if they have the same keys and equivalent values under each. -/
theorem equivalent_lawful :
    Equivalence (fun x y : {x : Json // x.WellKeyed} => equivalent x y = true) ∧
      (∀ x x' y y' : Json, x.Reordered x' → y.Reordered y' → equivalent x' y' = equivalent x y) ∧
      (∀ x y : Json, x.isScalar = true → (equivalent x y = true ↔
        x = y ∨ ∃ m n, x = .number m ∧ y = .number n ∧ m.toDouble.units = n.toDouble.units)) ∧
      (∀ xs ys : List Json, equivalent (.array xs) (.array ys) = true ↔
        xs.length = ys.length ∧
          ∀ (i : Nat) (hx : i < xs.length) (hy : i < ys.length), equivalent xs[i] ys[i] = true) ∧
      ∀ ms ns : List (String × Json), (Entries.keys ms).Nodup → (Entries.keys ns).Nodup →
        (equivalent (.object ms) (.object ns) = true ↔
          (∀ key, key ∈ Entries.keys ms ↔ key ∈ Entries.keys ns) ∧
            ∀ key x y, (key, x) ∈ ms → (key, y) ∈ ns → equivalent x y = true) := by
  refine ⟨?_, ?_, fun x y hx => equivalent_scalar_iff hx y, ?_, ?_⟩
  · exact {
      refl := fun x => equivalent_self x.1 x.2
      symm := fun {x _} => equivalent_symm x.1 x.2
      trans := fun {x _ _} => equivalent_trans x.1 }
  · intro x x' y y' hx hy
    exact (equivalent_congr hx hy).symm
  · intro xs ys
    rw [equivalent_array, List.forall₂_iff_get]
    rfl
  · intro ms ns hms hns
    rw [equivalent_object_iff_rearranged hms, Entries.rearranged_iff_keys hms hns]

/-- `2 ^ 63`, the least integer above the signed ones. -/
def leastUnsigned : Whole := ⟨Whole.signedLimit, by decide⟩

/-- A place in integers. -/
def countedPlace : List (String × Json) :=
  [("unit", .string "mm"),
    ("at", .array [.object [("x", .null), ("y", .number (.whole leastUnsigned))]])]

/-- The members the other way round, at both depths. -/
def turnedPlace : List (String × Json) :=
  [("at", .array [.object [("y", .number (.whole leastUnsigned)), ("x", .null)]]),
    ("unit", .string "mm")]

/-- The place in doubles. -/
def measuredPlace : List (String × Json) :=
  [("unit", .string "mm"),
    ("at", .array [.object [("x", .null), ("y", .ofDouble leastUnsigned.toDouble)]])]

theorem reordered_turnedPlace : Reordered (.object countedPlace) (.object turnedPlace) := by
  refine Reordered.object_iff.mpr ⟨by decide, _, .swap _ _ _, ?_⟩
  have hpoint : WellKeyed (.object [("x", .null), ("y", .number (.whole leastUnsigned))]) :=
    (isWellKeyed_iff _).mp (by decide)
  exact .cons (.intro (.array (.cons (.of_perm (.swap _ _ _) hpoint) .nil)))
    (.cons (.intro (.scalar rfl)) .nil)

theorem equivalent_turnedPlace :
    Reordered (.object countedPlace) (.object turnedPlace) ∧
      equivalent (.number (.whole leastUnsigned)) (.ofDouble leastUnsigned.toDouble) = true ∧
      equivalent (.object turnedPlace) (.object measuredPlace) = true ∧
      equivalent (.object measuredPlace) (.object turnedPlace) = true ∧
      ∀ key, key ∈ Entries.keys turnedPlace ↔ key ∈ Entries.keys measuredPlace := by
  obtain ⟨hequivalence, horder, hscalar, -, hobject⟩ := equivalent_lawful
  have hturned : WellKeyed (.object turnedPlace) := (isWellKeyed_iff _).mp (by decide)
  have hmeasured : WellKeyed (.object measuredPlace) := (isWellKeyed_iff _).mp (by decide)
  have hboth : equivalent (.object turnedPlace) (.object measuredPlace) = true := by
    rw [horder _ _ _ _ reordered_turnedPlace (.refl hmeasured)]
    decide +kernel
  exact ⟨reordered_turnedPlace, (hscalar _ _ rfl).mpr (.inr ⟨_, _, rfl, rfl, rfl⟩), hboth,
    hequivalence.symm (x := ⟨_, hturned⟩) (y := ⟨_, hmeasured⟩) hboth,
    ((hobject _ _ (by decide) (by decide)).mp hboth).1⟩

end Json

end DataSchema
