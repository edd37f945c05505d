import DataSchema.Validation.Handle

/-!
The validators that a handle keeps.

A handle compiles a validator when it first needs it and keeps it from then on. Whatever is done with a
handle, a kept validator is the one that the handle's policy gives (`Made.coherent`), so that keeping it
cannot be told from compiling it anew.
-/

namespace DataSchema.Handle

variable [Pattern.Engine]

/-- The kept validators are compiled from the schema of the handle under its fixed policy. -/
structure Coherent (h : Handle) : Prop where
  single : ∀ v ∈ h.single, ∃ o ∈ h.fixed, Validator.compile h.schema o = .ok v
  list : ∀ v ∈ h.list, ∃ o ∈ h.fixed, Validator.compile (listSchema h.schema) o = .ok v

theorem effective_of_fixed {h : Handle} {o : Options} (ho : o ∈ h.fixed) (current : Options) :
    h.effective current = o := by
  rw [effective, Option.mem_def.mp ho]

namespace Coherent

variable {h : Handle}

theorem fix (hc : h.Coherent) (current : Options) : (h.fix current).Coherent := by
  -- with a validator kept the policy is fixed already, and stays what it is
  constructor
  · intro v hv
    obtain ⟨o, ho, hcompiled⟩ := hc.single v hv
    exact ⟨o, congrArg some (effective_of_fixed ho current), hcompiled⟩
  · intro v hv
    obtain ⟨o, ho, hcompiled⟩ := hc.list v hv
    exact ⟨o, congrArg some (effective_of_fixed ho current), hcompiled⟩

theorem withSingle (hc : h.Coherent) (current : Options) : (h.withSingle current).1.Coherent := by
  have hfixed := hc.fix current
  rw [Handle.withSingle.eq_def]
  split
  · exact hc
  · dsimp only
    split
    · next v hcompiled =>
      refine ⟨?_, hfixed.list⟩
      rintro w ⟨rfl⟩
      exact ⟨h.effective current, rfl, hcompiled⟩
    · exact hfixed

theorem withList (hc : h.Coherent) (current : Options) : (h.withList current).1.Coherent := by
  have hfixed := hc.fix current
  rw [Handle.withList.eq_def]
  split
  · exact hc
  · dsimp only
    split
    · next v hcompiled =>
      refine ⟨hfixed.single, ?_⟩
      rintro w ⟨rfl⟩
      exact ⟨h.effective current, rfl, hcompiled⟩
    · exact hfixed

/-- The validator for single values, kept or not, is the one that the policy gives. -/
theorem withSingle_snd (hc : h.Coherent) (current : Options) :
    (h.withSingle current).2 = Validator.compile h.schema (h.effective current) := by
  rw [Handle.withSingle.eq_def]
  split
  · next v hv =>
    obtain ⟨o, ho, hcompiled⟩ := hc.single v hv
    rw [effective_of_fixed ho, hcompiled]
  · dsimp only
    split
    · next v hcompiled => exact hcompiled.symm
    · next e hcompiled => exact hcompiled.symm

theorem withList_snd (hc : h.Coherent) (current : Options) :
    (h.withList current).2 = Validator.compile (listSchema h.schema) (h.effective current) := by
  rw [Handle.withList.eq_def]
  split
  · next v hv =>
    obtain ⟨o, ho, hcompiled⟩ := hc.list v hv
    rw [effective_of_fixed ho, hcompiled]
  · dsimp only
    split
    · next v hcompiled => exact hcompiled.symm
    · next e hcompiled => exact hcompiled.symm

end Coherent

/-! ### What validation leaves of the handle -/

section Operations

variable (h : Handle) (current : Options)

theorem validate_fst (value : Json) : (h.validate current value).1 = (h.withSingle current).1 := by
  rw [validate.eq_def]
  split
  · next hw => rw [hw]
  · next hw => rw [hw]

theorem validateList_fst (values : List Json) :
    (h.validateList current values).1 = (h.withList current).1 := by
  rw [validateList.eq_def]
  split
  · next hw => rw [hw]
  · next hw => rw [hw]

theorem parse_fst (α : Type) [Typed α] (value : Json) :
    (h.parse α current value).1 = (h.validate current value).1 := rfl

end Operations

/-- The handles there are: new ones, and what the operations make of them. -/
inductive Made : Handle → Prop where
  | new (schema : Schema) (context : ContextId) : Made { schema := schema, context := context }
  | validate {h : Handle} (current : Options) (value : Json) :
    Made h → Made (h.validate current value).1
  | validateList {h : Handle} (current : Options) (values : List Json) :
    Made h → Made (h.validateList current values).1
  | parse {h : Handle} (α : Type) [Typed α] (current : Options) (value : Json) :
    Made h → Made (h.parse α current value).1
  | configure {h : Handle} (current : Options) (changes : Overrides) :
    Made h → Made (h.configure current changes)
  | derive {h : Handle} (schema : Schema) : Made h → Made (h.derive schema)

theorem Made.coherent {h : Handle} (hmade : h.Made) : h.Coherent := by
  induction hmade with
  | new schema context => exact ⟨nofun, nofun⟩
  | validate current value _ ih => rw [validate_fst]; exact ih.withSingle current
  | validateList current values _ ih => rw [validateList_fst]; exact ih.withList current
  | parse α current value _ ih => rw [parse_fst, validate_fst]; exact ih.withSingle current
  | configure current changes _ _ => exact ⟨nofun, nofun⟩
  | derive schema _ _ => exact ⟨nofun, nofun⟩

section Verdicts

variable {h : Handle} {current : Options} {v : Validator}

theorem validate_snd (hv : (h.withSingle current).2 = .ok v) (value : Json) :
    (h.validate current value).2 = (v.validate? value).map (verdict v) := by
  rw [validate.eq_def]
  split
  · next hw => rw [hw] at hv; cases hv; rfl
  · next hw => rw [hw] at hv; cases hv

theorem validateList_snd (hv : (h.withList current).2 = .ok v) (values : List Json) :
    (h.validateList current values).2 = (v.validateList? values).map (verdict v) := by
  rw [validateList.eq_def]
  split
  · next hw => rw [hw] at hv; cases hv; rfl
  · next hw => rw [hw] at hv; cases hv

end Verdicts

section Policies

variable {h h' : Handle} {current : Options}

/-! ### Attempts to compile -/

/-- What an attempt to compile leaves of a handle whose context holds the policy. -/
structure Attempted (h : Handle) (current : Options) (h' : Handle) : Prop where
  schema : h'.schema = h.schema
  context : h'.context = h.context
  explicit : h'.explicit = h.explicit
  fixed : h'.fixed = some (h.effective current)

theorem attempted_of_fixed {o : Options} (ho : o ∈ h.fixed) (current : Options) :
    h.Attempted current h :=
  ⟨rfl, rfl, rfl, by rw [effective_of_fixed ho, Option.mem_def.mp ho]⟩

theorem attempted_withSingle (hc : h.Coherent) (current : Options) :
    h.Attempted current (h.withSingle current).1 := by
  rw [withSingle.eq_def]
  split
  · next v hv =>
    obtain ⟨o, ho, _⟩ := hc.single v hv
    exact attempted_of_fixed ho current
  · dsimp only
    split <;> exact ⟨rfl, rfl, rfl, rfl⟩

theorem attempted_withList (hc : h.Coherent) (current : Options) :
    h.Attempted current (h.withList current).1 := by
  rw [withList.eq_def]
  split
  · next v hv =>
    obtain ⟨o, ho, _⟩ := hc.list v hv
    exact attempted_of_fixed ho current
  · dsimp only
    split <;> exact ⟨rfl, rfl, rfl, rfl⟩

/-- The kept validators go with the fixed policy, which is the handle's own one, if it has one. -/
structure Steady (h : Handle) : Prop extends h.Coherent where
  explicit : ∀ o ∈ h.explicit, ∀ p ∈ h.fixed, p = o

theorem steady_of_unfixed {schema : Schema} {context : ContextId} {explicit : Option Options} :
    Steady { schema := schema, context := context, explicit := explicit } where
  single v hv := absurd hv (Option.not_mem_none v)
  list v hv := absurd hv (Option.not_mem_none v)
  explicit _ _ p hp := absurd hp (Option.not_mem_none p)

theorem Steady.effective_eq (hs : h.Steady) {o : Options} (ho : o ∈ h.explicit) (current : Options) :
    h.effective current = o := by
  rw [effective]
  split
  · next p hp => exact hs.explicit o ho p hp
  · rw [Option.mem_def.mp ho, Option.getD_some]

theorem Steady.attempted (hs : h.Steady) (ha : h.Attempted current h') (hc : h'.Coherent) :
    h'.Steady where
  toCoherent := hc
  explicit o ho p hp := by
    rw [ha.fixed] at hp
    cases hp
    exact hs.effective_eq (ha.explicit ▸ ho) current

/-- The handle is the other one, further on: its policy is fixed where the other's is, to the same. -/
structure Continues (h h' : Handle) : Prop where
  schema : h'.schema = h.schema
  context : h'.context = h.context
  explicit : h'.explicit = h.explicit
  fixed : ∀ o ∈ h.fixed, h'.fixed = some o

theorem Continues.refl (h : Handle) : h.Continues h := ⟨rfl, rfl, rfl, fun _ ho => ho⟩

theorem Continues.trans {h'' : Handle} (first : h.Continues h') (second : h'.Continues h'') :
    h.Continues h'' where
  schema := second.schema.trans first.schema
  context := second.context.trans first.context
  explicit := second.explicit.trans first.explicit
  fixed o ho := second.fixed o (first.fixed o ho)

theorem Attempted.continues (ha : h.Attempted current h') : h.Continues h' where
  schema := ha.schema
  context := ha.context
  explicit := ha.explicit
  fixed o ho := by rw [ha.fixed, effective_of_fixed ho]

/-! ### Policies in use -/

/-- Under the policy that the context holds, the handle says that it uses the other policy, and what it
validates values and lists with is compiled under it. -/
structure Uses (h : Handle) (current o : Options) : Prop where
  effective : h.effective current = o
  single : (h.withSingle current).2 = Validator.compile h.schema o
  list : (h.withList current).2 = Validator.compile (listSchema h.schema) o

theorem Coherent.uses (hc : h.Coherent) {o : Options} (ho : h.effective current = o) :
    h.Uses current o where
  effective := ho
  single := by rw [hc.withSingle_snd, ho]
  list := by rw [hc.withList_snd, ho]

end Policies

end DataSchema.Handle
