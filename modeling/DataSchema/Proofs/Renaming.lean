import DataSchema.Pattern.Reader
import DataSchema.Proofs.Merging
import DataSchema.Proofs.Relaxing
import DataSchema.Proofs.Renamed
import DataSchema.Proofs.Transforming

/-!
Renaming a property.

A property is renamed where it stands, and marked afterwards, or freed of its mark and its default
(`Schema.renameAs_eq`). So the renamed schema is to be compared with the schema that has the old name and the
same mark (`Schema.Remarked`): the one takes an object exactly if the other one takes it with the member
renamed back (`Validator.validate_renamed`).
-/

namespace DataSchema

namespace Schema

variable {s m r : Schema} {old new : String}

/-! ### The operations -/

theorem markRequired_rest (s : Schema) (name : String) :
    s.markRequired name = { s with required := (s.markRequired name).required } := by
  rw [markRequired]
  split
  · cases s
    rfl
  · rfl

theorem unmarkRequired_rest (s : Schema) (name : String) :
    s.unmarkRequired name = { s with required := (s.unmarkRequired name).required } := by
  rw [unmarkRequired]
  split
  · rfl
  · cases s
    rfl

/-- The schema with a property made optional, which drops its default. -/
def freed (s : Schema) (name : String) : Schema := (s.unmarkRequired name).modifyProperty name withoutDefault

section Operations

variable (hsimple : s.isSimpleObject = true) (hold : s.declares old = true) (hnew : s.declares new = false)

theorem ensureDeclared_singleton (hold : s.declares old = true) : s.ensureDeclared [old] = .ok () :=
  ensureDeclared_eq_ok_iff.mpr (by simpa using hold)

include hsimple hold

theorem setRequiredProperties_singleton : s.setRequiredProperties [old] = .ok (s.markRequired old) := by
  rw [setRequiredProperties, ensureSimple_eq hsimple, ensureDeclared_singleton hold]
  rfl

theorem setOptionalProperties_singleton : s.setOptionalProperties [old] = .ok (s.freed old) := by
  rw [setOptionalProperties, ensureSimple_eq hsimple, ensureDeclared_singleton hold]
  rfl

include hnew

theorem renameAs_eq (op : Operation) (required : Bool) :
    ∃ r, s.renameAs op old new required = .ok r ∧
      Renames old new (if required then s.markRequired old else s.freed old) r := by
  have hfree : ¬ (old ≠ new ∧ s.declares new = true) := by simp [hnew]
  have hne := ne_of_declares hold hnew
  rw [renameAs, ensureSimple_eq hsimple, ensureDeclared_singleton hold]
  refine ⟨_, if_neg hfree, ?_⟩
  have hkeys : new ∉ Entries.keys s.properties := not_mem_keys_of_not_declares hnew
  cases required with
  | true =>
    refine ⟨?_, ?_, fun name => ?_⟩
    · rw [if_pos rfl, if_pos rfl, markRequired_rest, unmarkRequired_rest, markRequired_rest s]
    · simp [map_renameKey]
    · rw [if_pos rfl, if_pos rfl, mem_requiredNames_markRequired, mem_requiredNames_unmarkRequired_iff,
        mem_requiredNames_markRequired, mem_requiredNames_markRequired]
      show (name ∈ s.requiredNames ∧ name ≠ old) ∨ name = new ↔ _
      by_cases hname : name = old <;> simp [hname]
  | false =>
    refine ⟨?_, ?_, fun name => ?_⟩
    · rw [if_neg Bool.false_ne_true, if_neg Bool.false_ne_true, modifyProperty, unmarkRequired_rest, freed,
        modifyProperty, unmarkRequired_rest s]
    · simp [map_renameKey, modifyProperty, freed, Entries.modify_rename, hkeys]
    · rw [if_neg Bool.false_ne_true, if_neg Bool.false_ne_true]
      show name ∈ Schema.requiredNames (unmarkRequired _ old) ↔
        (name ∈ (s.unmarkRequired old).requiredNames ∧ name ≠ old) ∨
          (name = new ∧ old ∈ (s.unmarkRequired old).requiredNames)
      simp only [mem_requiredNames_unmarkRequired_iff]
      show name ∈ s.requiredNames ∧ name ≠ old ↔ _
      simp

end Operations

/-- The second schema differs from the first one in marks and defaults: a property that is not as it was has
lost its default, and any other that is optional was so before. -/
structure Remarked (s m : Schema) : Prop where
  rest : m = { s with properties := m.properties, required := m.required }
  keys : Entries.keys m.properties = Entries.keys s.properties
  required : ∀ name ∈ m.requiredNames, s.declares name = true
  properties : ∀ e ∈ m.properties,
    (e ∈ s.properties ∧ (e.1 ∈ s.requiredNames → e.1 ∈ m.requiredNames)) ∨
      ∃ t, (e.1, t) ∈ s.properties ∧ e.2 = t.withoutDefault

namespace Remarked

variable (h : s.Remarked m)

include h

theorem declares (name : String) : m.declares name = s.declares name := by
  rw [Bool.eq_iff_iff, Schema.declares, Schema.declares, Entries.has_iff, Entries.has_iff, h.keys]

theorem isSimpleObject (hsimple : s.isSimpleObject = true) : m.isSimpleObject = true := by
  have hempty : m.properties.isEmpty = s.properties.isEmpty := by
    have hkeys := congrArg List.isEmpty h.keys
    rwa [Entries.keys, Entries.keys, List.isEmpty_map, List.isEmpty_map] at hkeys
  rw [isSimpleObject_of_rest h.rest hempty, hsimple]

theorem check [Pattern.Engine] {strict : Bool} (hs : s.check strict = .ok ()) : m.check strict = .ok () := by
  obtain ⟨hsound, hchildren⟩ := (check_eq_ok_iff s).mp hs
  refine check_of_properties hs h.rest (fun e he => ?_)
    fun hstrict => ⟨fun name hname => ?_, fun e he hfree => ?_⟩
  · rcases h.properties e he with ⟨hmem, -⟩ | ⟨t, ht, hlost⟩
    · exact hchildren e.2 (.property hmem)
    · rw [hlost]
      exact check_withoutDefault (hchildren t (.property ht))
  · rw [h.declares, h.required name hname]
  · rcases h.properties e he with ⟨hmem, hkept⟩ | ⟨t, -, hlost⟩
    · exact (((sound_iff strict).mp hsound).2 hstrict).default_eq_none hmem (mt hkept hfree)
    · rw [hlost]
      rfl

end Remarked

section Marks

variable (hrequired : ∀ name ∈ s.requiredNames, s.declares name = true)

include hrequired

theorem remarked_markRequired (hold : s.declares old = true) : s.Remarked (s.markRequired old) where
  rest := by rw [markRequired_rest]
  keys := by rw [properties_markRequired]
  required name hname := by
    rcases mem_requiredNames_markRequired.mp hname with hmem | rfl
    · exact hrequired name hmem
    · exact hold
  properties e he := by
    rw [properties_markRequired] at he
    exact .inl ⟨he, fun hmem => mem_requiredNames_markRequired.mpr (.inl hmem)⟩

theorem remarked_freed (hkeys : (Entries.keys s.properties).Nodup) (old : String) :
    s.Remarked (s.freed old) where
  rest := by
    rw [freed, unmarkRequired_rest]
    rfl
  keys := by rw [freed, modifyProperty, Entries.keys_modify, properties_unmarkRequired]
  required name hname := hrequired name (mem_requiredNames_unmarkRequired_iff.mp hname).1
  properties e he := by
    rw [freed, modifyProperty, properties_unmarkRequired, Entries.modify_eq_map hkeys] at he
    obtain ⟨e', he', rfl⟩ := List.mem_map.mp he
    by_cases hname : e'.1 = old
    · exact .inr ⟨e'.2, he', if_pos hname⟩
    · refine .inl ⟨by rwa [if_neg hname], fun hmem => ?_⟩
      exact mem_requiredNames_unmarkRequired_iff.mpr ⟨hmem, hname⟩

end Marks

/-- A property that is renamed and renamed back is where it was and is required; nothing else changes. -/
theorem renameProperty_back (hsimple : s.isSimpleObject = true) (hold : s.declares old = true)
    (hnew : s.declares new = false) (hrequired : ∀ name ∈ s.requiredNames, s.declares name = true) :
    ∃ r t, s.renameProperty old new = .ok r ∧ r.renameProperty new old = .ok t ∧
      t.properties = s.properties ∧
      ∀ name, name ∈ t.requiredNames ↔ name = old ∨ name ∈ s.requiredNames := by
  have hm := remarked_markRequired hrequired hold
  obtain ⟨r, hr, hrenames⟩ := renameAs_eq hsimple hold hnew .rename true
  rw [if_pos rfl] at hrenames
  have hget := hrenames.get? ((hm.declares new).trans hnew)
  have hne := ne_of_declares hold hnew
  have hthere : r.declares new = true := by
    rw [declares, Entries.has, hget, if_pos rfl, properties_markRequired]
    exact hold
  have hgone : r.declares old = false := by
    rw [declares, Entries.has, hget, if_neg hne, if_pos rfl]
    rfl
  have hsimple' := hrenames.isSimpleObject (hm.isSimpleObject hsimple)
  obtain ⟨t, ht, hback⟩ := renameAs_eq hsimple' hthere hgone .rename true
  rw [if_pos rfl] at hback
  refine ⟨r, t, hr, ht, ?_, fun name => ?_⟩
  · rw [hback.properties, properties_markRequired, hrenames.properties, properties_markRequired]
    exact Entries.rename_rename (not_mem_keys_of_not_declares hnew)
  · have hnever := not_mem_requiredNames hrequired hnew
    rw [hback.required, mem_requiredNames_markRequired, mem_requiredNames_markRequired, hrenames.required,
      mem_requiredNames_markRequired]
    by_cases hname : name = old
    · simp [hname]
    · by_cases hother : name = new
      · simp [hother, hnever, Ne.symm hne]
      · simp [hname, hother]

end Schema

namespace Validator

/-- The first validator passes no object with the old name, and any other one exactly if the second validator
passes it with the new name changed back into the old one. -/
def RenamesMember [Pattern.Engine] (old new : String) (w u : Validator) : Prop :=
  ∀ members, (Entries.keys members).Nodup →
    (Entries.has members old = true → (w.validate (.object members)).issues ≠ []) ∧
      (Entries.has members old = false →
        (w.Passes (.object members) ↔ u.Passes (.object (Entries.rename new old members))))

/-- Renaming a property is renaming the member, whatever is made of the marks. -/
theorem renamesMember_of_renames [Pattern.Engine] {s m r : Schema} {o : Options} {old new : String}
    (hs : s.check o.strict = .ok ()) (hsimple : s.isSimpleObject = true) (hconst : s.const = none)
    (henum : s.enum = none) (hkeys : (Entries.keys s.properties).Nodup) (hold : s.declares old = true)
    (hnew : s.declares new = false) (hmatches : s.matchesKey old = false) (hm : s.Remarked m)
    (hr : Schema.Renames old new m r) :
    ∃ w u, compile r o.plain = .ok w ∧ compile m o.plain = .ok u ∧ RenamesMember old new w u := by
  have hne := Schema.ne_of_declares hold hnew
  have hold' : m.declares old = true := by rw [hm.declares, hold]
  have hnew' : m.declares new = false := by rw [hm.declares, hnew]
  have hrequired : ∀ name ∈ m.requiredNames, m.declares name = true := by
    intro name hname
    rw [hm.declares, hm.required name hname]
  have hvalues : m.const = none ∧ m.enum = none ∧ m.matchesKey old = false := by
    rw [hm.rest]
    exact ⟨hconst, henum, hmatches⟩
  obtain ⟨hconst', henum', hmatches'⟩ := hvalues
  have hkeys' : (Entries.keys m.properties).Nodup := by rwa [hm.keys]
  have hsimple' := hm.isSimpleObject hsimple
  have hcompiled := compile_of_check (hr.check (hm.check hs) hrequired hold') (o := o.plain)
  have hcompiled' := compile_of_check (hm.check hs) (o := o.plain)
  refine ⟨_, _, hcompiled, hcompiled', fun members hmembers => ⟨fun hthere => ?_, fun habsent => ?_⟩⟩
  · rw [ne_eq, (validate_plain_iff hcompiled _).1]
    exact hr.not_accepts_old hsimple' hnew' hne hmatches' hmembers ((Entries.has_iff _ _).mp hthere)
  · have hfree : old ∉ Entries.keys members := by
      rw [← Entries.has_iff, habsent]
      decide
    rw [passes_plain_iff hcompiled, passes_plain_iff hcompiled']
    exact hr.reads_iff hsimple' hnew' (Schema.readsParts_clears o) hconst' henum' hkeys' hold' hrequired hmembers hfree

/-- A closed object with an optional mail address, whose other keys begin with an x. -/
def contact : Schema where
  kind := some .object
  additional := .allowed false
  properties := [("mail", Schema.ofKind .string), ("age", Schema.ofKind .integer)]
  required := some ["age"]
  patternProperties := [("^x", Schema.ofKind .boolean)]

end Validator

end DataSchema
