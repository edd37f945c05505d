import DataSchema.Pattern.Reader
import DataSchema.Proofs.Reshaping
import DataSchema.Schema.Facet

/-!
Schemas that are built by operations.

The ways to make a schema (`Origin`) and to reshape one (`Reshape`) are listed as data, with the schemas
that they take in. Each of them makes a well marked schema of well marked schemas, so whatever is built
by any number of them is well marked (`Built.wellMarked`, `Schema.wellMarked_operations`).
-/

namespace DataSchema

/-- The ways to make a schema. -/
inductive Origin where
  | empty
  | ofKind (kind : Kind)
  | enumeration (values : List Json)
  | constant (value : Json)
  | arrayOf (element : Schema)
  | emptyObject
  | oneOf (branches : List Schema)
  | allOf (branches : List Schema)
  | anyOf (branches : List Schema)
  | not (schema : Schema)

namespace Origin

/-- The schemas that stand in the one that is made. -/
def operands : Origin → List Schema
  | .arrayOf s => [s]
  | .oneOf ts => ts
  | .allOf ts => ts
  | .anyOf ts => ts
  | .not s => [s]
  | _ => []

def make : Origin → Except ReshapeError Schema
  | .empty => .ok {}
  | .ofKind kind => .ok (Schema.ofKind kind)
  | .enumeration values => .ok (Schema.enumeration values)
  | .constant value => .ok (Schema.constant value)
  | .arrayOf s => .ok (Schema.arrayOf s)
  | .emptyObject => .ok Schema.emptyObject
  | .oneOf ts => Schema.ofOneOf ts
  | .allOf ts => Schema.ofAllOf ts
  | .anyOf ts => Schema.ofAnyOf ts
  | .not s => .ok (Schema.ofNot s)

end Origin

def Schema.PropertySpec.operands : Schema.PropertySpec → List Schema
  | .required s => [s]
  | .optional s => [s]
  | .union s t => [s, t]

/-- The ways to reshape a schema. -/
inductive Reshape where
  | addProperty (name : String) (child : Schema) (required nullable : Bool)
  | addProperties (entries : List (String × Schema.PropertySpec))
  | removeProperty (name : String)
  | setOptional (names : List String)
  | setRequired (names : List String)
  | rename (old new : String)
  | renameOptional (old new : String)
  | pick (names : List String)
  | pickAdditional (names : List String) (extra : Option (List String))
  /-- Keeps the properties that are not named. -/
  | drop (names : List String)
  | transform (alternate : Schema) (names : Option (List String))
  | transformToArray (names : Option (List String)) (constraints : Option ArrayFacets)
  | unwrapArray (names : Option (List String))
  | replace (name : String) (child : Schema)
  | addOrReplace (name : String) (child : Schema)
  | addAdditional (child : Option Schema)
  | addPattern (start suffix : String) (child : Schema)
  | cloneWith (changes : Schema.MetadataChanges)
  | toOptionals
  | toDeepOptionals
  | toNullable
  | toDeepNullable
  | merge (strategy : MergeStrategy) (overlay : Schema)

namespace Reshape

/-- The schemas that are taken in beside the one that is reshaped. -/
def operands : Reshape → List Schema
  | .addProperty _ child _ _ => [child]
  | .addProperties entries => entries.flatMap (·.2.operands)
  | .transform alternate _ => [alternate]
  | .replace _ child => [child]
  | .addOrReplace _ child => [child]
  | .addAdditional child => child.toList
  | .addPattern _ _ child => [child]
  | .merge _ overlay => [overlay]
  | _ => []

def apply [Pattern.Engine] (s : Schema) : Reshape → Except ReshapeError Schema
  | .addProperty name child required nullable => s.addProperty name child required nullable
  | .addProperties entries => s.addProperties entries
  | .removeProperty name => s.removeProperty name
  | .setOptional names => s.setOptionalProperties names
  | .setRequired names => s.setRequiredProperties names
  | .rename old new => s.renameProperty old new
  | .renameOptional old new => s.renameOptionalProperty old new
  | .pick names => s.pickProperties names
  | .pickAdditional names extra => s.pickAdditionalProperties names extra
  | .drop names => s.omitProperties names
  | .transform alternate names => s.transformProperties alternate names
  | .transformToArray names constraints => s.transformPropertiesToArray names constraints
  | .unwrapArray names => s.unwrapArrayProperties names
  | .replace name child => s.replaceProperty name child
  | .addOrReplace name child => s.addOrReplaceProperty name child
  | .addAdditional child => s.addAdditionalProperties child
  | .addPattern start suffix child => s.addPatternProperty start suffix child
  | .cloneWith changes => .ok (s.cloneWith changes)
  | .toOptionals => .ok s.toOptionals
  | .toDeepOptionals => .ok s.toDeepOptionals
  | .toNullable => .ok s.toNullable
  | .toDeepNullable => .ok s.toDeepNullable
  | .merge strategy overlay => s.merge strategy overlay

end Reshape

namespace Schema

variable {s t u : Schema}

/-! ### Making -/

theorem wellMarked_combination {combinator : Combinator} (ts : List Schema) (hs : s.required = none)
    (hchildren : s.children = ts) (hts : ∀ u ∈ ts, u.WellMarked)
    (h : (refuseTooFew combinator ts >>= fun _ => pure s) = .ok t) : t.WellMarked := by
  obtain ⟨_, _, h⟩ := bind_eq_ok_iff.mp h
  obtain rfl := Except.ok.inj h
  exact wellMarked_of_required_none hs (hchildren ▸ hts)

theorem wellMarked_make {origin : Origin} (hoperands : ∀ u ∈ origin.operands, u.WellMarked)
    (h : origin.make = .ok t) : t.WellMarked := by
  cases origin with
  | oneOf ts => exact wellMarked_combination ts rfl (by simp [children]) hoperands h
  | allOf ts => exact wellMarked_combination ts rfl (by simp [children]) hoperands h
  | anyOf ts => exact wellMarked_combination ts rfl (by simp [children]) hoperands h
  | arrayOf s =>
    obtain rfl := Except.ok.inj h
    exact wellMarked_arrayOf (hoperands s List.mem_cons_self)
  | not s =>
    obtain rfl := Except.ok.inj h
    exact wellMarked_not (hoperands s List.mem_cons_self)
  | _ =>
    obtain rfl := Except.ok.inj h
    exact wellMarked_of_required_none rfl fun _ ht => absurd ht List.not_mem_nil

theorem PropertySpec.wellMarked {spec : PropertySpec}
    (h : ∀ u ∈ spec.operands, u.WellMarked) : spec.schema.WellMarked := by
  cases spec with
  | required s => exact h s List.mem_cons_self
  | optional s => exact h s List.mem_cons_self
  | union s t =>
    rw [operands, List.forall_mem_cons, List.forall_mem_singleton] at h
    exact h.1.either h.2

/-! ### Any number of operations -/

theorem WellMarked.apply [Pattern.Engine] (hs : s.WellMarked) {op : Reshape}
    (hop : ∀ u ∈ op.operands, u.WellMarked) (h : op.apply s = .ok t) : t.WellMarked := by
  cases op with
  | addProperty => exact hs.addProperty (hop _ List.mem_cons_self) h
  | addProperties entries =>
    exact hs.addProperties (fun e he => PropertySpec.wellMarked fun u hu =>
      hop u (List.mem_flatMap.mpr ⟨e, he, hu⟩)) h
  | removeProperty => exact hs.removeProperty h
  | setOptional => exact hs.setOptionalProperties h
  | setRequired => exact hs.setRequiredProperties h
  | rename => exact hs.renameAs h
  | renameOptional => exact hs.renameAs h
  | pick => exact hs.pickProperties h
  | pickAdditional => exact hs.pickAdditionalProperties h
  | drop => exact hs.omitProperties h
  | transform => exact hs.transformProperties (hop _ List.mem_cons_self) h
  | transformToArray => exact hs.transformPropertiesToArray h
  | unwrapArray => exact hs.unwrapArrayProperties h
  | replace name child =>
    refine hs.replacePropertyWith (fun _ c _ hc => ?_) h
    obtain rfl := Except.ok.inj hc
    exact hop _ List.mem_cons_self
  | addOrReplace => exact hs.addOrReplaceProperty (hop _ List.mem_cons_self) h
  | addAdditional => exact hs.addAdditionalProperties (fun u hu => hop u (Option.mem_toList.mpr hu)) h
  | addPattern => exact hs.addPatternProperty (hop _ List.mem_cons_self) h
  | cloneWith =>
    obtain rfl := Except.ok.inj h
    exact hs.of_nested rfl rfl
  | toOptionals =>
    obtain rfl := Except.ok.inj h
    exact wellMarked_toOptionals fun _ ht => hs.child ht
  | toDeepOptionals =>
    obtain rfl := Except.ok.inj h
    exact wellMarked_toDeepOptionals s
  | toNullable =>
    obtain rfl := Except.ok.inj h
    exact hs.toNullable
  | toDeepNullable =>
    obtain rfl := Except.ok.inj h
    exact hs.toDeepNullable
  | merge => exact hs.merge (hop _ List.mem_cons_self) h

end Schema

/-- What any number of operations builds. Other facets may be set in between, parts of what was built may
be used again, and a property may be replaced by any function that keeps schemas well marked. -/
inductive Built [Pattern.Engine] : Schema → Prop where
  | made {t : Schema} (origin : Origin) :
      (∀ u ∈ origin.operands, Built u) → origin.make = .ok t → Built t
  | reshaped {s t : Schema} (op : Reshape) :
      Built s → (∀ u ∈ op.operands, Built u) → op.apply s = .ok t → Built t
  | replaced {s t : Schema} (name : String) (f : Schema → Except ReshapeError Schema) : Built s →
      (∀ c c' : Schema, c.WellMarked → f c = .ok c' → c'.WellMarked) →
      s.replacePropertyWith name f = .ok t → Built t
  | refaceted {s t : Schema} : Built s → t.nested = s.nested → t.required = s.required → Built t
  | part {s t : Schema} : Built s → Schema.Child t s → Built t

theorem Built.set [Pattern.Engine] {α : Type} {s : Schema} (h : Built s) (f : Facet α) (x : α) :
    Built (s.set f x) :=
  h.refaceted (by cases f <;> rfl) (Schema.required_set f x)

/-- By induction on how the schema was built, with one operation at a step. -/
theorem Built.wellMarked [Pattern.Engine] {t : Schema} (h : Built t) : t.WellMarked := by
  induction h with
  | made origin _ hmake ih => exact Schema.wellMarked_make ih hmake
  | reshaped op _ _ happly ih ihop => exact ih.apply ihop happly
  | replaced name f _ hf hreplace ih => exact ih.replacePropertyWith hf hreplace
  | refaceted _ hnested hrequired ih => exact ih.of_nested hnested hrequired
  | part _ hchild ih => exact ih.child hchild

/-- Whatever makes or reshapes a schema makes a well marked one of well marked ones, whenever it
succeeds, and so do any number of such operations. -/
theorem Schema.wellMarked_operations [Pattern.Engine] (s t : Schema) :
    (∀ origin : Origin, (∀ u ∈ origin.operands, u.WellMarked) → origin.make = .ok t → t.WellMarked) ∧
    (∀ op : Reshape, s.WellMarked → (∀ u ∈ op.operands, u.WellMarked) → op.apply s = .ok t →
      t.WellMarked) ∧
    (∀ name f, s.WellMarked → (∀ c c' : Schema, c.WellMarked → f c = .ok c' → c'.WellMarked) →
      s.replacePropertyWith name f = .ok t → t.WellMarked) ∧
    (Built t → t.WellMarked) :=
  ⟨fun _ => wellMarked_make, fun _ hs => hs.apply, fun _ _ hs => hs.replacePropertyWith,
    Built.wellMarked⟩

/-- An object schema that is given a required property, which then gets another name. -/
theorem Schema.wellMarked_renamed : ∃ s t : Schema,
    emptyObject.addProperty "n" (ofKind .integer) true false = .ok s ∧
      s.renameProperty "n" "m" = .ok t ∧ t.required = some ["m"] ∧ Built t ∧ t.WellMarked := by
  have hempty : Built emptyObject := .made .emptyObject nofun rfl
  have hinteger : Built (ofKind .integer) := .made (.ofKind .integer) nofun rfl
  refine ⟨_, _, rfl, rfl, rfl, ?_⟩
  have hadded := Built.reshaped (.addProperty "n" (ofKind .integer) true false) hempty
    (List.forall_mem_singleton.mpr hinteger) rfl
  have hrenamed := Built.reshaped (.rename "n" "m") hadded nofun rfl
  exact ⟨hrenamed, (wellMarked_operations emptyObject _).2.2.2 hrenamed⟩

end DataSchema
