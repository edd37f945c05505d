import DataSchema.Proofs.Overlaying
import DataSchema.Proofs.Transforming

/-!
Arrays that are unwrapped again.

To let a property be an array too puts a union with an array of it in its place, unless it is an array; from
such a union the property is got back (`Schema.unwrapArray_orArray`), and as often as it was put there.
Arrays are left alone by both operations, if they are no unions of that shape themselves. So the second
operation takes back the first one (`Schema.unwrapArrayProperties_transformed`).
-/

namespace DataSchema

/-- What takes back a map on the things that the map leaves in a class takes back its repetition. -/
theorem iterate_undo {α : Type} {f g : α → α} {p : α → Prop} (hf : ∀ x, p x → p (f x))
    (hg : ∀ x, p x → g (f x) = x) : ∀ (n : Nat) {x : α}, p x → g^[n] (f^[n] x) = x
  | 0, _, _ => rfl
  | n + 1, x, hx => by
    rw [Function.iterate_succ_apply' g, Function.iterate_succ_apply f, iterate_undo hf hg n (hf x hx),
      hg x hx]

namespace Schema

variable {s c : Schema} {constraints : Option ArrayFacets} {names : Option (List String)}

/-- A union of two schemas, either of `anyOf` or of `oneOf`, of which one is an array of the other. -/
def IsArrayUnion (c : Schema) : Prop :=
  ∃ first second, (c.anyOf = some [first, second] ∨ c.oneOf = some [first, second]) ∧
    (isArrayOf first second = true ∨ isArrayOf second first = true)

theorem unwrapArray_of_not_isArrayUnion (h : ¬ c.IsArrayUnion) : c.unwrapArray = c := by
  have hnone : c.elementOfUnion? = none := by
    rw [elementOfUnion?]
    split
    · next first second hunion =>
      have hbranches : c.anyOf = some [first, second] ∨ c.oneOf = some [first, second] := by
        rw [Option.orElse_eq_orElse, Option.orElse_eq_or, Option.or_eq_some_iff] at hunion
        exact hunion.imp_right And.right
      split
      · next harray => exact absurd ⟨first, second, hbranches, .inl harray⟩ h
      · split
        · next harray => exact absurd ⟨first, second, hbranches, .inr harray⟩ h
        · rfl
    · rfl
  rw [unwrapArray, hnone, Option.getD_none]

/-- A schema that is no array, and in which no key stands twice. -/
def Wrappable (c : Schema) : Prop := c.kind ≠ some .array ∧ c.KeysUnique

/-- A union with an array is no array, and can be wrapped again. -/
theorem Wrappable.orArray (h : c.Wrappable) (constraints : Option ArrayFacets) :
    (c.orArray constraints).Wrappable := by
  have harray : KeysUnique { arrayOf c with array := constraints.getD {} } := by
    refine .of_children rfl rfl rfl rfl rfl rfl ?_
    simp [forall_child_iff, arrayOf, h.2]
  rw [Schema.orArray, if_neg h.1]
  refine ⟨by simp [either], .of_children rfl rfl rfl rfl rfl rfl ?_⟩
  simpa [forall_child_iff, either, h.2] using harray

theorem unwrapArray_orArray (h : c.Wrappable) (constraints : Option ArrayFacets) :
    (c.orArray constraints).unwrapArray = c := by
  have hfirst : isArrayOf c { arrayOf c with array := constraints.getD {} } = false := by
    rw [isArrayOf, beq_false_of_ne h.1, Bool.false_and]
  have hsecond : isArrayOf { arrayOf c with array := constraints.getD {} } c = true := by
    simpa [isArrayOf, arrayOf] using c.same_self h.2
  rw [orArray, if_neg h.1, unwrapArray, elementOfUnion?, either]
  simp [hfirst, hsecond]

/-- What is put in the place of a property, however often, is taken away by unwrapping as often. -/
theorem iterate_unwrapArray_orArray (h : c.KeysUnique) (hunion : c.kind = some .array → ¬ c.IsArrayUnion)
    (constraints : Option ArrayFacets) (n : Nat) : unwrapArray^[n] ((orArray constraints)^[n] c) = c := by
  by_cases hkind : c.kind = some .array
  · have hwrapped : orArray constraints c = c := if_pos hkind
    rw [Function.iterate_fixed hwrapped,
      Function.iterate_fixed (unwrapArray_of_not_isArrayUnion (hunion hkind))]
  · exact iterate_undo (fun _ hx => hx.orArray constraints)
      (fun _ hx => unwrapArray_orArray hx constraints) n ⟨hkind, h⟩

theorem propertyNames_mapProperties (s : Schema) (f : String → Schema → Schema) :
    (s.mapProperties f).propertyNames = s.propertyNames := by
  rw [propertyNames, propertyNames, mapProperties, Entries.keys_map]

theorem mapProperties_congr {f g : String → Schema → Schema}
    (h : ∀ e ∈ s.properties, f e.1 e.2 = g e.1 e.2) : s.mapProperties f = s.mapProperties g := by
  rw [mapProperties, mapProperties, List.map_congr_left fun e he => congrArg (Prod.mk e.1) (h e he)]

theorem isSimpleObject_mapProperties (s : Schema) (f : String → Schema → Schema) :
    (s.mapProperties f).isSimpleObject = s.isSimpleObject := by
  rw [isSimpleObject, isSimpleObject, isObject, isObject, mapProperties, List.isEmpty_map]
  rfl

/-- Unwrapping takes back what letting properties be arrays did to a closed object schema, for the same names
and whatever is asked of the arrays, if no named array is a union with an array of itself. -/
theorem unwrapArrayProperties_transformed (hsimple : s.isSimpleObject = true) (h : s.KeysUnique)
    (names : Option (List String)) (constraints : Option ArrayFacets)
    (hnames : ∀ ns ∈ names, ∀ name ∈ ns, s.declares name = true)
    (hunions : ∀ name ∈ names.getD s.propertyNames, ∀ c, Entries.get? s.properties name = some c →
      c.kind = some .array → ¬ c.IsArrayUnion) :
    ∃ t, s.transformPropertiesToArray names constraints = .ok t ∧
      t.unwrapArrayProperties names = .ok s := by
  obtain ⟨hkeys, -⟩ := h.1 s (.refl s)
  refine ⟨_, transformPropertiesToArray_eq hsimple hkeys hnames constraints, ?_⟩
  rw [unwrapArrayProperties_eq (by rwa [isSimpleObject_mapProperties])
    (by rwa [← propertyNames, propertyNames_mapProperties]) (by rwa [declares_mapProperties]),
    propertyNames_mapProperties, mapProperties_mapProperties]
  refine congrArg Except.ok ((mapProperties_congr fun e he => ?_).trans (mapProperties_self s))
  by_cases hname : e.1 ∈ names.getD s.propertyNames
  · exact iterate_unwrapArray_orArray (h.child (.property he))
      (hunions e.1 hname e.2 (Entries.get?_of_mem hkeys he)) constraints _
  · rw [List.count_eq_zero.mpr hname]
    rfl

/-- A closed object with a text, a list of sizes, and notes that are a text or several ones already. -/
def shelf : Schema where
  kind := some .object
  additional := .allowed false
  properties := [("tag", ofKind .string), ("sizes", arrayOf (ofKind .integer)),
    ("notes", either (arrayOf (ofKind .string)) (ofKind .string))]
  required := some ["tag"]

/-- What is named twice is wrapped twice, and unwrapped twice; the list of sizes stays as it is. -/
theorem unwrapArrayProperties_shelf :
    ∃ t, shelf.transformPropertiesToArray (some ["notes", "tag", "sizes", "tag"])
        (some { minItems := some 1 }) = .ok t ∧
      Entries.get? t.properties "sizes" = some (arrayOf (ofKind .integer)) ∧
      t.unwrapArrayProperties (some ["notes", "tag", "sizes", "tag"]) = .ok shelf := by
  have hunions : ∀ name ∈ ["notes", "tag", "sizes", "tag"], ∀ c,
      Entries.get? shelf.properties name = some c → c.kind = some .array → ¬ c.IsArrayUnion := by
    rintro name hname c hget hkind ⟨first, second, hbranches, -⟩
    simp only [List.mem_cons, List.not_mem_nil, or_false] at hname
    rcases hname with rfl | rfl | rfl | rfl <;> cases hget <;> cases hkind
    rcases hbranches with hany | hone
    · cases hany
    · cases hone
  obtain ⟨t, ht, hback⟩ := unwrapArrayProperties_transformed (s := shelf) rfl
    ⟨of_allWithin 4 (by decide), of_allWithin 4 (by decide)⟩ (some ["notes", "tag", "sizes", "tag"])
    (some { minItems := some 1 }) (by decide) hunions
  refine ⟨t, ht, ?_, hback⟩
  obtain rfl := Except.ok.inj ht
  rfl

end Schema

end DataSchema
