import DataSchema.Proofs.Nesting
import DataSchema.Schema.Combination
import DataSchema.Validation.Facets

/-!
Schemas whose nested schemas are changed.

A function is applied to every schema directly below a schema by `Schema.mapChildren`. Relaxing a schema at
every depth does this with itself, before or after the schema is relaxed on its own
(`Schema.toDeepOptionals_eq`, `Schema.toDeepNullable_eq`); so what holds of the children of a relaxed schema
is told by its children before. Relaxing twice is relaxing once: what comes out of it is not changed any more.
-/

namespace DataSchema

def Additional.map {σ τ : Type} (f : σ → τ) : Additional σ → Additional τ
  | .unspecified => .unspecified
  | .allowed yes => .allowed yes
  | .schema s => .schema (f s)

namespace Schema

variable {s t : Schema} {f : Schema → Schema} {p : Schema → Prop}

/-- The schema with every schema directly below it as the function makes it. -/
def mapChildren (f : Schema → Schema) (s : Schema) : Schema :=
  { s with
    properties := Entries.mapValues f s.properties
    patternProperties := Entries.mapValues f s.patternProperties
    additional := s.additional.map f
    items := s.items.map f
    oneOf := s.oneOf.map (List.map f)
    allOf := s.allOf.map (List.map f)
    anyOf := s.anyOf.map (List.map f)
    not := s.not.map f }

/-- What holds of every child, told by the children before. -/
theorem forall_child_mapChildren :
    (∀ t, Child t (s.mapChildren f) → p t) ↔ ∀ t, Child t s → p (f t) := by
  have hadditional : (∀ t, s.additional.map f = .schema t → p t) ↔
      ∀ t, s.additional = .schema t → p (f t) := by
    cases s.additional <;> simp [Additional.map]
  have hbranches : ∀ branches : Option (List Schema),
      (∀ ts ∈ branches.map (List.map f), ∀ t ∈ ts, p t) ↔ ∀ ts ∈ branches, ∀ t ∈ ts, p (f t) := by
    rintro (_ | ts) <;> simp
  have hoption : ∀ option : Option Schema, (∀ t ∈ option.map f, p t) ↔ ∀ t ∈ option, p (f t) := by
    rintro (_ | t) <;> simp
  have hentries : ∀ ps : List (String × Schema),
      (∀ e ∈ Entries.mapValues f ps, p e.2) ↔ ∀ e ∈ ps, p (f e.2) := fun ps => List.forall_mem_map
  rw [forall_child_iff, forall_child_iff, mapChildren, hentries, hentries, hadditional, hoption,
    hbranches, hbranches, hbranches, hoption]

/-- Where the function changes no child, nothing changes. -/
theorem mapChildren_eq_self (h : ∀ t, Child t s → f t = t) : s.mapChildren f = s := by
  obtain ⟨hp, hpp, had, hit, hone, hall, hany, hno⟩ := forall_child_iff.mp h
  have hentries : ∀ {ps : List (String × Schema)}, (∀ e ∈ ps, f e.2 = e.2) →
      Entries.mapValues f ps = ps := by
    intro ps hps
    have hsame : ps.map (fun e => (e.1, f e.2)) = ps.map id :=
      List.map_congr_left fun e he => Prod.ext rfl (hps e he)
    rw [Entries.mapValues, hsame, List.map_id]
  have hadditional : s.additional.map f = s.additional := by
    cases hs : s.additional with
    | schema t => exact congrArg Additional.schema (had t hs)
    | _ => rfl
  have hoption : ∀ {option : Option Schema}, (∀ t ∈ option, f t = t) → option.map f = option := by
    rintro (_ | t) ht
    · rfl
    · exact congrArg some (ht t rfl)
  have hbranches : ∀ {branches : Option (List Schema)}, (∀ ts ∈ branches, ∀ t ∈ ts, f t = t) →
      branches.map (List.map f) = branches := by
    rintro (_ | ts) hts
    · rfl
    · exact congrArg some ((List.map_congr_left (hts ts rfl)).trans (List.map_id _))
  rw [mapChildren, hentries hp, hentries hpp, hadditional, hoption hit, hbranches hone, hbranches hall,
    hbranches hany, hoption hno]
  cases s
  rfl

/-! ### The same questions -/

theorem declares_mapChildren (f : Schema → Schema) (s : Schema) (name : String) :
    (s.mapChildren f).declares name = s.declares name := by
  rw [declares, mapChildren, Entries.has, Entries.get?_mapValues, Option.isSome_map]
  rfl

theorem isExtra_mapChildren [Pattern.Engine] (f : Schema → Schema) (s : Schema) (key : String) :
    (s.mapChildren f).isExtra key = s.isExtra key := by
  have hmatches : (s.mapChildren f).matchesKey key = s.matchesKey key := List.any_map
  rw [isExtra, isExtra, declares_mapChildren, hmatches]

theorem isOpen_mapChildren (f : Schema → Schema) (s : Schema) :
    (s.mapChildren f).isOpen = s.isOpen := by
  rw [isOpen, isOpen, mapChildren]
  cases s.additional <;> rfl

theorem hasCombination_mapChildren (f : Schema → Schema) (s : Schema) :
    (s.mapChildren f).hasCombination = s.hasCombination := by
  simp [hasCombination, mapChildren]

theorem declares_toOptionals (s : Schema) (name : String) :
    s.toOptionals.declares name = s.declares name := by
  rw [declares, toOptionals, Entries.has, Entries.get?_mapValues, Option.isSome_map]
  rfl

theorem isExtra_toOptionals [Pattern.Engine] (s : Schema) (key : String) :
    s.toOptionals.isExtra key = s.isExtra key := by
  rw [isExtra, isExtra, declares_toOptionals]
  rfl

theorem hasCombination_toNullable (s : Schema) : s.toNullable.hasCombination = s.hasCombination := by
  rw [toNullable]
  split <;> rfl

/-! ### What relaxing leaves below a schema -/

theorem forall_child_withoutDefault :
    (∀ t, Child t s.withoutDefault → p t) ↔ ∀ t, Child t s → p t := by
  rw [forall_child_iff, forall_child_iff]
  rfl

/-- A child of a schema that is made optional is a child of the schema, or one that lost its default. -/
theorem forall_child_toOptionals (h : ∀ t, Child t s → p t) (hdefault : ∀ t, p t → p t.withoutDefault) :
    ∀ t, Child t s.toOptionals → p t := by
  obtain ⟨hproperties, hrest⟩ := forall_child_iff.mp h
  exact forall_child_iff.mpr ⟨List.forall_mem_map.mpr fun e he => hdefault _ (hproperties e he), hrest⟩

theorem forall_child_toNullable (h : ∀ t, Child t s → p t) : ∀ t, Child t s.toNullable → p t := by
  rw [toNullable]
  split
  · exact h
  · rw [forall_child_iff] at h ⊢
    exact h

/-! ### Relaxing at every depth -/

theorem deepOptionalEntries_eq : ∀ ps : List (String × Schema),
    deepOptionalEntries ps = Entries.mapValues toDeepOptionals ps
  | [] => by rw [deepOptionalEntries]; rfl
  | (k, t) :: rest => by rw [deepOptionalEntries, deepOptionalEntries_eq rest]; rfl

theorem deepOptionalList_eq : ∀ ts : List Schema, deepOptionalList ts = ts.map toDeepOptionals
  | [] => by rw [deepOptionalList, List.map_nil]
  | t :: rest => by rw [deepOptionalList, deepOptionalList_eq rest, List.map_cons]

theorem deepNullableEntries_eq : ∀ ps : List (String × Schema),
    deepNullableEntries ps = Entries.mapValues toDeepNullable ps
  | [] => by rw [deepNullableEntries]; rfl
  | (k, t) :: rest => by rw [deepNullableEntries, deepNullableEntries_eq rest]; rfl

/-- The schemas below are made optional at every depth first, then the schema itself. -/
theorem toDeepOptionals_eq (s : Schema) :
    s.toDeepOptionals = (s.mapChildren toDeepOptionals).toOptionals := by
  have hadditional : ∀ a : Additional Schema,
      deepOptionalAdditional a = a.map toDeepOptionals := by
    rintro (_ | b | t) <;> rw [deepOptionalAdditional] <;> rfl
  have hoption : ∀ option : Option Schema, deepOptionalOption option = option.map toDeepOptionals := by
    rintro (_ | t) <;> rw [deepOptionalOption] <;> rfl
  have hbranches : ∀ branches : Option (List Schema),
      deepOptionalBranches branches = branches.map (List.map toDeepOptionals) := by
    rintro (_ | ts) <;> rw [deepOptionalBranches]
    · rfl
    · rw [deepOptionalList_eq, Option.map_some]
  cases s
  rw [toDeepOptionals]
  simp only [deepOptionalEntries_eq, hadditional, hoption, hbranches]
  rfl

/-- The schemas below are made to take null at every depth first, unless the schema is a combination; then
the schema itself. -/
theorem toDeepNullable_eq (s : Schema) : s.toDeepNullable =
    (if s.hasCombination then s else s.mapChildren toDeepNullable).toNullable := by
  have hadditional : ∀ a : Additional Schema, deepNullableAdditional a = a.map toDeepNullable := by
    rintro (_ | b | t) <;> rw [deepNullableAdditional] <;> rfl
  have hoption : ∀ option : Option Schema, deepNullableOption option = option.map toDeepNullable := by
    rintro (_ | t) <;> rw [deepNullableOption] <;> rfl
  by_cases h : s.hasCombination = true
  · rw [if_pos h, toDeepNullable.eq_def]
    split
    · cases h
    · rfl
  · obtain ⟨hone, hall, hany, hnot⟩ := hasCombination_eq_false.mp (Bool.eq_false_iff.mpr h)
    rw [if_neg h]
    cases s
    cases hone
    cases hall
    cases hany
    cases hnot
    rw [toDeepNullable]
    simp only [deepNullableEntries_eq, hadditional, hoption]
    rfl

/-! ### Relaxing twice -/

theorem withoutDefault_toDeepOptionals (s : Schema) :
    s.withoutDefault.toDeepOptionals = s.toDeepOptionals.withoutDefault := by
  rw [toDeepOptionals_eq, toDeepOptionals_eq]
  rfl

theorem toOptionals_toOptionals (s : Schema) : s.toOptionals.toOptionals = s.toOptionals := by
  have htwice : Entries.mapValues withoutDefault (Entries.mapValues withoutDefault s.properties) =
      Entries.mapValues withoutDefault s.properties := by
    simp [Entries.mapValues, withoutDefault]
  rw [toOptionals, toOptionals, htwice]

theorem toNullable_toNullable (s : Schema) : s.toNullable.toNullable = s.toNullable := by
  by_cases h : s.admitsNull = true
  · have hsame : s.toNullable = s := by rw [toNullable, if_pos h]
    rw [hsame, hsame]
  · have hset : s.toNullable = { s with nullable := true } := by rw [toNullable, if_neg h]
    rw [hset, toNullable, if_pos]
    rfl

theorem toDeepOptionals_toDeepOptionals (s : Schema) :
    s.toDeepOptionals.toDeepOptionals = s.toDeepOptionals := by
  induction s using Schema.induction with
  | step s ih =>
    have hchildren : ∀ t, Child t s.toDeepOptionals → t.toDeepOptionals = t := by
      rw [toDeepOptionals_eq]
      refine forall_child_toOptionals (forall_child_mapChildren.mpr ih) fun t ht => ?_
      rw [withoutDefault_toDeepOptionals, ht]
    rw [toDeepOptionals_eq s.toDeepOptionals, mapChildren_eq_self hchildren, toDeepOptionals_eq,
      toOptionals_toOptionals]

theorem toDeepNullable_toDeepNullable (s : Schema) :
    s.toDeepNullable.toDeepNullable = s.toDeepNullable := by
  induction s using Schema.induction with
  | step s ih =>
    by_cases h : s.hasCombination = true
    · have hstep : s.toDeepNullable = s.toNullable := by rw [toDeepNullable_eq, if_pos h]
      have hcombined : s.toNullable.hasCombination = true := (hasCombination_toNullable s).trans h
      rw [hstep, toDeepNullable_eq, if_pos hcombined, toNullable_toNullable]
    · have hstep : s.toDeepNullable = (s.mapChildren toDeepNullable).toNullable := by
        rw [toDeepNullable_eq, if_neg h]
      have huncombined : ¬ s.toDeepNullable.hasCombination = true := by
        rwa [hstep, hasCombination_toNullable, hasCombination_mapChildren]
      have hchildren : ∀ t, Child t s.toDeepNullable → t.toDeepNullable = t := by
        rw [hstep]
        exact forall_child_toNullable (forall_child_mapChildren.mpr ih)
      rw [toDeepNullable_eq s.toDeepNullable, if_neg huncombined, mapChildren_eq_self hchildren, hstep,
        toNullable_toNullable]

end Schema

end DataSchema
