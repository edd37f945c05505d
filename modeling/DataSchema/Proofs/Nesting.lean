import DataSchema.Schema.Basic

/-!
The schemas directly below a schema, under whichever keyword, and induction along them.

A schema nests others in lists, in options and beside names, so the induction that comes with the type
has a case for each of these containers. `Schema.induction` has one step: what holds of a schema whenever it
holds of its children holds of every schema.
-/

namespace DataSchema.Schema

/-- The first schema stands directly below the second one. -/
inductive Child : Schema → Schema → Prop where
  | property {s t : Schema} {name : String} : (name, t) ∈ s.properties → Child t s
  | pattern {s t : Schema} {source : String} : (source, t) ∈ s.patternProperties → Child t s
  | additional {s t : Schema} : s.additional = .schema t → Child t s
  | items {s t : Schema} : s.items = some t → Child t s
  | oneOf {s t : Schema} {ts : List Schema} : s.oneOf = some ts → t ∈ ts → Child t s
  | allOf {s t : Schema} {ts : List Schema} : s.allOf = some ts → t ∈ ts → Child t s
  | anyOf {s t : Schema} {ts : List Schema} : s.anyOf = some ts → t ∈ ts → Child t s
  | not {s t : Schema} : s.not = some t → Child t s

theorem sizeOf_entries {name : String} {t : Schema} {entries : List (String × Schema)}
    (h : (name, t) ∈ entries) : sizeOf t < sizeOf entries := by
  have hlt := List.sizeOf_lt_of_mem h
  rw [Prod.mk.sizeOf_spec] at hlt
  omega

theorem sizeOf_branches {t : Schema} {ts : List Schema} {branches : Option (List Schema)}
    (hs : branches = some ts) (h : t ∈ ts) : sizeOf t < sizeOf branches := by
  have hlt := List.sizeOf_lt_of_mem h
  rw [hs, Option.some.sizeOf_spec]
  omega

theorem sizeOf_option {t : Schema} {option : Option Schema} (h : option = some t) :
    sizeOf t < sizeOf option := by
  rw [h, Option.some.sizeOf_spec]
  omega

theorem sizeOf_additional {t : Schema} {additional : Additional Schema}
    (h : additional = .schema t) : sizeOf t < sizeOf additional := by
  rw [h, Additional.schema.sizeOf_spec]
  omega

theorem Child.ofAllOf {s t : Schema} (h : t ∈ s.allOf.getD []) : Child t s := by
  cases hs : s.allOf with
  | none =>
    rw [hs] at h
    cases h
  | some ts => exact .allOf hs (by rwa [hs] at h)

theorem hasCombination_eq_false {s : Schema} :
    s.hasCombination = false ↔ s.oneOf = none ∧ s.allOf = none ∧ s.anyOf = none ∧ s.not = none := by
  simp only [hasCombination, Bool.or_eq_false_iff, Option.isSome_eq_false_iff,
    Option.isNone_iff_eq_none, and_assoc]

theorem isSimpleObject_iff {s : Schema} : s.isSimpleObject = true ↔
    s.isObject = true ∧ s.isOpen = false ∧ s.hasCombination = false := by
  simp only [isSimpleObject, Bool.and_eq_true, Bool.not_eq_true', and_assoc]

/-- What holds of every child, field by field. -/
theorem forall_child_iff {p : Schema → Prop} {s : Schema} :
    (∀ t, Child t s → p t) ↔
      (∀ e ∈ s.properties, p e.2) ∧ (∀ e ∈ s.patternProperties, p e.2) ∧
        (∀ t, s.additional = .schema t → p t) ∧ (∀ t ∈ s.items, p t) ∧
        (∀ ts ∈ s.oneOf, ∀ t ∈ ts, p t) ∧ (∀ ts ∈ s.allOf, ∀ t ∈ ts, p t) ∧
        (∀ ts ∈ s.anyOf, ∀ t ∈ ts, p t) ∧ ∀ t ∈ s.not, p t := by
  constructor
  · intro h
    exact ⟨fun e he => h e.2 (.property he), fun e he => h e.2 (.pattern he),
      fun t ht => h t (.additional ht), fun t ht => h t (.items ht),
      fun ts hs t ht => h t (.oneOf hs ht), fun ts hs t ht => h t (.allOf hs ht),
      fun ts hs t ht => h t (.anyOf hs ht), fun t ht => h t (.not ht)⟩
  · rintro ⟨hproperties, hpatterns, hadditional, hitems, hone, hall, hany, hnot⟩ t ht
    cases ht with
    | property hm => exact hproperties _ hm
    | pattern hm => exact hpatterns _ hm
    | additional hs => exact hadditional t hs
    | items hs => exact hitems t hs
    | oneOf hs hm => exact hone _ hs t hm
    | allOf hs hm => exact hall _ hs t hm
    | anyOf hs hm => exact hany _ hs t hm
    | not hs => exact hnot t hs

/-- Each field that nests schemas is smaller than the schema. -/
theorem sizeOf_fields (s : Schema) :
    sizeOf s.properties < sizeOf s ∧ sizeOf s.patternProperties < sizeOf s ∧
      sizeOf s.additional < sizeOf s ∧ sizeOf s.items < sizeOf s ∧ sizeOf s.oneOf < sizeOf s ∧
      sizeOf s.allOf < sizeOf s ∧ sizeOf s.anyOf < sizeOf s ∧ sizeOf s.not < sizeOf s := by
  cases s
  simp only [mk.sizeOf_spec]
  omega

theorem Child.sizeOf_lt {s t : Schema} (h : Child t s) : sizeOf t < sizeOf s := by
  obtain ⟨hp, hpp, had, hit, hone, hall, hany, hno⟩ := sizeOf_fields s
  cases h with
  | property hm => exact Nat.lt_trans (sizeOf_entries hm) hp
  | pattern hm => exact Nat.lt_trans (sizeOf_entries hm) hpp
  | additional hs => exact Nat.lt_trans (sizeOf_additional hs) had
  | items hs => exact Nat.lt_trans (sizeOf_option hs) hit
  | oneOf hs hm => exact Nat.lt_trans (sizeOf_branches hs hm) hone
  | allOf hs hm => exact Nat.lt_trans (sizeOf_branches hs hm) hall
  | anyOf hs hm => exact Nat.lt_trans (sizeOf_branches hs hm) hany
  | not hs => exact Nat.lt_trans (sizeOf_option hs) hno

@[elab_as_elim]
theorem induction {motive : Schema → Prop}
    (step : ∀ s, (∀ t, Child t s → motive t) → motive s) (s : Schema) : motive s :=
  step s fun t _ => induction step t
termination_by sizeOf s
decreasing_by exact Child.sizeOf_lt ‹_›

/-- The first schema is the second one or lies below it, at any depth. -/
inductive Within : Schema → Schema → Prop where
  | refl (s : Schema) : Within s s
  | step {s t u : Schema} : Child t s → Within u t → Within u s

theorem Within.trans {s t u : Schema} (hu : Within u t) (ht : Within t s) : Within u s := by
  induction ht with
  | refl => exact hu
  | step hchild _ ih => exact .step hchild (ih hu)

/-! ### Listing -/

/-- The schemas directly below a schema, in the order of its fields. -/
def children (s : Schema) : List Schema :=
  s.properties.map Prod.snd ++ s.patternProperties.map Prod.snd ++
    (match s.additional with
      | .schema t => [t]
      | _ => []) ++
    s.items.toList ++ s.oneOf.getD [] ++ s.allOf.getD [] ++ s.anyOf.getD [] ++ s.not.toList

theorem mem_children_of_child {s t : Schema} (h : Child t s) : t ∈ s.children := by
  cases h with
  | property hm => simp [children, List.mem_map_of_mem (f := Prod.snd) hm]
  | pattern hm => simp [children, List.mem_map_of_mem (f := Prod.snd) hm]
  | additional hs => simp [children, hs]
  | items hs => simp [children, hs]
  | oneOf hs hm => simp [children, hs, hm]
  | allOf hs hm => simp [children, hs, hm]
  | anyOf hs hm => simp [children, hs, hm]
  | not hs => simp [children, hs]

/-- Do the schema and all below it have the property? Of a schema that is deeper than the bound it is
not said. -/
def allWithin (p : Schema → Prop) [DecidablePred p] : Nat → Schema → Bool
  | 0, _ => false
  | depth + 1, s => decide (p s) && s.children.all (allWithin p depth)

theorem of_allWithin {p : Schema → Prop} [DecidablePred p] : ∀ (depth : Nat) {s : Schema},
    allWithin p depth s = true → ∀ t, Within t s → p t
  | depth + 1, s, h, t, ht => by
    rw [allWithin, Bool.and_eq_true, decide_eq_true_iff, List.all_eq_true] at h
    cases ht with
    | refl => exact h.1
    | step hchild hwithin => exact of_allWithin depth (h.2 _ (mem_children_of_child hchild)) t hwithin

/-! ### What no schema of a tree asks -/

/-- No schema at or below the schema has anything to choose from. -/
def ChoiceFree (s : Schema) : Prop :=
  ∀ t, Within t s → t.anyOf = none ∧ t.oneOf = none ∧ t.not = none

theorem ChoiceFree.child {s t : Schema} (h : s.ChoiceFree) (ht : Child t s) : t.ChoiceFree :=
  fun u hu => h u (.step ht hu)

theorem choiceFree_ofKind (kind : Kind) : (ofKind kind).ChoiceFree := by
  intro t ht
  cases ht with
  | refl => exact ⟨rfl, rfl, rfl⟩
  | step hchild _ => cases hchild <;> contradiction

/-- No schema at or below the schema asks for a time. -/
def Timeless (s : Schema) : Prop := ∀ t, Within t s → t.text.format ≠ some "time"

theorem timeless_iff {s : Schema} :
    s.Timeless ↔ s.text.format ≠ some "time" ∧ ∀ t, Child t s → t.Timeless := by
  constructor
  · exact fun h => ⟨h s (.refl s), fun t ht u hu => h u (.step ht hu)⟩
  · rintro ⟨hown, hchildren⟩ t (_ | ⟨hc, ht⟩)
    · exact hown
    · exact hchildren _ hc _ ht

end DataSchema.Schema
