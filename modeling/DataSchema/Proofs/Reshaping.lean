import DataSchema.Proofs.Mapping
import DataSchema.Proofs.Marking
import DataSchema.Proofs.Results

/-!
Operations on schemas that keep them well marked.

Each operation checks its precondition and then takes steps that keep a schema well marked, or that do so
together: a property is dropped or renamed only with its mark, and a property that is to be required is
marked when it is put. An operation that succeeds on a well marked schema, with well marked schemas
beside it, makes a well marked one.
-/

namespace DataSchema

namespace Schema

variable {s t u : Schema}

theorem ensureDeclared_eq_ok_iff {names : List String} :
    s.ensureDeclared names = .ok () ↔ ∀ name ∈ names, s.declares name = true := by
  rw [ensureDeclared]
  split
  · next name hname =>
    refine iff_of_false (by simp) fun h => ?_
    have hfree := List.find?_some (p := (!s.declares ·)) hname
    rw [h name (List.mem_of_find?_eq_some hname)] at hfree
    cases hfree
  · next hnone => exact iff_of_true rfl (by simpa using hnone)

theorem ensureSimple_eq (hsimple : s.isSimpleObject = true) (op : Operation) :
    s.ensureSimple op = .ok () := if_pos hsimple

theorem ensureNoCombination_eq (hobject : s.isObject = true) (hcombined : s.hasCombination = false)
    (op : Operation) : s.ensureNoCombination op = .ok () := by
  rw [ensureNoCombination, hcombined, ensureObject, hobject]
  rfl

/-! ### Adding and removing -/

@[simp] theorem declares_markRequired (s : Schema) (name other : String) :
    (s.markRequired name).declares other = s.declares other := by
  rw [Schema.markRequired]
  split <;> rfl

@[simp] theorem declares_unmarkRequired (s : Schema) (name other : String) :
    (s.unmarkRequired name).declares other = s.declares other := by
  rw [Schema.unmarkRequired]
  split <;> rfl

theorem WellMarked.addProperty (hs : s.WellMarked) (hu : u.WellMarked) {name : String}
    {required nullable : Bool} (h : s.addProperty name u required nullable = .ok t) :
    t.WellMarked := by
  obtain ⟨_, _, h⟩ := bind_eq_ok_iff.mp h
  split at h
  · cases h
  · obtain rfl := Except.ok.inj h
    have hadded : (if nullable then { u with nullable := true } else u).WellMarked := by
      split
      · exact hu.withNullable true
      · exact hu
    have hput := hs.putProperty name hadded
    split
    · exact hput.markRequired (by simp)
    · exact hput

/-- The name is marked before its property is there, and only the two together keep the schema well
marked. -/
theorem WellMarked.addProperties (hs : s.WellMarked) {entries : List (String × PropertySpec)}
    (hentries : ∀ e ∈ entries, e.2.schema.WellMarked) (h : s.addProperties entries = .ok t) :
    t.WellMarked := by
  obtain ⟨_, _, h⟩ := bind_eq_ok_iff.mp h
  split at h
  · cases h
  · obtain rfl := Except.ok.inj h
    refine List.foldlRecOn entries _ hs fun acc hacc e he => ?_
    have hput := hacc.putProperty e.1 (hentries e he)
    show ((if e.2.isRequired then acc.markRequired e.1 else acc).putProperty e.1 e.2.schema).WellMarked
    split
    · rw [putProperty_markRequired]
      exact hput.markRequired (by simp)
    · exact hput

theorem WellMarked.removeProperty (hs : s.WellMarked) {name : String}
    (h : s.removeProperty name = .ok t) : t.WellMarked := by
  obtain ⟨_, _, h⟩ := bind_eq_ok_iff.mp h
  obtain ⟨_, _, h⟩ := bind_eq_ok_iff.mp h
  obtain rfl := Except.ok.inj h
  rw [unmarkRequired_withProperties]
  refine (hs.unmarkRequired name).withProperties
    (fun e he => hs.properties e (Entries.mem_of_mem_erase he)) fun n hn => ?_
  obtain ⟨hold, hne⟩ := mem_requiredNames_unmarkRequired hn
  rw [Entries.has, Entries.get?_erase_of_ne _ hne]
  exact hs.marked.declared n hold

/-! ### Requiredness and names -/

theorem WellMarked.setOptionalProperties (hs : s.WellMarked) {names : List String}
    (h : s.setOptionalProperties names = .ok t) : t.WellMarked := by
  obtain ⟨_, _, h⟩ := bind_eq_ok_iff.mp h
  obtain ⟨_, _, h⟩ := bind_eq_ok_iff.mp h
  obtain rfl := Except.ok.inj h
  exact List.foldlRecOn names _ hs fun acc hacc name _ =>
    (hacc.unmarkRequired name).modifyProperty name fun _ hc => hc.withoutDefault

/-- Marking a name declares none, so the names stay declared throughout. -/
theorem WellMarked.markAll (hs : s.WellMarked) {names : List String}
    (hnames : ∀ name ∈ names, s.declares name = true) : (names.foldl Schema.markRequired s).WellMarked := by
  induction names generalizing s with
  | nil => exact hs
  | cons name rest ih =>
    rw [List.forall_mem_cons] at hnames
    refine ih (hs.markRequired hnames.1) fun other hother => ?_
    rw [declares_markRequired, hnames.2 other hother]

theorem WellMarked.setRequiredProperties (hs : s.WellMarked) {names : List String}
    (h : s.setRequiredProperties names = .ok t) : t.WellMarked := by
  obtain ⟨_, _, h⟩ := bind_eq_ok_iff.mp h
  obtain ⟨_, hdeclared, h⟩ := bind_eq_ok_iff.mp h
  obtain rfl := Except.ok.inj h
  exact hs.markAll fun _ hname => ensureDeclared_eq_ok_iff.mp hdeclared _ hname

theorem has_renamed {ps : List (String × Schema)} (old new : String) {name : String}
    (h : Entries.has ps name = true) :
    Entries.has (ps.map (renameKey old new)) (if name = old then new else name) = true := by
  rw [Entries.has_iff, Entries.keys, List.mem_map] at h ⊢
  obtain ⟨e, he, rfl⟩ := h
  refine ⟨renameKey old new e, List.mem_map_of_mem he, ?_⟩
  rw [renameKey]
  split <;> rfl

theorem WellMarked.renameAs (hs : s.WellMarked) {op : Operation} {old new : String} {required : Bool}
    (h : s.renameAs op old new required = .ok t) : t.WellMarked := by
  obtain ⟨_, _, h⟩ := bind_eq_ok_iff.mp h
  obtain ⟨_, hdeclared, h⟩ := bind_eq_ok_iff.mp h
  have hold : Entries.has s.properties old = true :=
    ensureDeclared_eq_ok_iff.mp hdeclared _ List.mem_cons_self
  split at h
  · cases h
  · obtain rfl := Except.ok.inj h
    rw [unmarkRequired_withProperties]
    have hrenamed : { s.unmarkRequired old with
        properties := s.properties.map (renameKey old new) }.WellMarked := by
      refine (hs.unmarkRequired old).withProperties (fun e he => ?_) fun n hn => ?_
      · obtain ⟨e', he', rfl⟩ := List.mem_map.mp he
        have hsame : (renameKey old new e').2 = e'.2 := by rw [renameKey]; split <;> rfl
        exact hsame ▸ hs.properties e' he'
      · obtain ⟨hrequired, hne⟩ := mem_requiredNames_unmarkRequired hn
        have hkept := has_renamed old new (hs.marked.declared n hrequired)
        rwa [if_neg hne] at hkept
    split
    · have hnew := has_renamed old new hold
      rw [if_pos rfl] at hnew
      exact hrenamed.markRequired hnew
    · exact hrenamed.modifyProperty new fun _ hc => hc.withoutDefault

/-! ### Choosing -/

theorem WellMarked.keepProperties (hs : s.WellMarked) {op : Operation} {names : List String}
    (h : s.keepProperties op names = .ok t) : t.WellMarked := by
  obtain ⟨_, _, h⟩ := bind_eq_ok_iff.mp h
  obtain ⟨_, _, h⟩ := bind_eq_ok_iff.mp h
  obtain rfl := Except.ok.inj h
  refine (hs.filterRequired names.contains).withProperties
    (fun e he => hs.properties e (List.mem_filter.mp he).1) fun n hn => ?_
  rw [requiredNames_setRequired, List.mem_filter] at hn
  rw [Entries.has, Entries.get?_filter, if_pos hn.2]
  exact hs.marked.declared n hn.1

/-- The same with another schema for the members beyond the properties. -/
theorem WellMarked.withAdditional (hs : s.WellMarked) {a : Additional Schema}
    (ha : ∀ u, a = .schema u → u.WellMarked) : { s with additional := a }.WellMarked := by
  obtain ⟨⟨hne, hnodup, hdeclared⟩, hchildren⟩ := (wellMarked_iff s).mp hs
  obtain ⟨hp, hpp, _, hrest⟩ := forall_child_iff.mp hchildren
  exact (wellMarked_iff _).mpr ⟨⟨hne, hnodup, hdeclared⟩, forall_child_iff.mpr ⟨hp, hpp, ha, hrest⟩⟩

theorem WellMarked.pickProperties (hs : s.WellMarked) {names : List String}
    (h : s.pickProperties names = .ok t) : t.WellMarked := by
  obtain ⟨picked, hpicked, h⟩ := bind_eq_ok_iff.mp h
  obtain rfl := Except.ok.inj h
  exact (hs.keepProperties hpicked).withAdditional nofun

/-- The schema that governs undeclared members stands in the schema, or says nothing. -/
theorem undeclaredSchema?_cases (h : s.undeclaredSchema? = some u) : s.additional = .schema u ∨ u = {} := by
  rw [Schema.undeclaredSchema?] at h
  split at h
  · cases h
  · next hadditional => exact .inl (hadditional.trans (congrArg Additional.schema (Option.some.inj h)))
  · exact .inr (Option.some.inj h).symm

theorem WellMarked.undeclaredSchema? (hs : s.WellMarked) (h : s.undeclaredSchema? = some u) :
    u.WellMarked := by
  rcases undeclaredSchema?_cases h with hadditional | rfl
  · exact hs.child (.additional hadditional)
  · exact wellMarked_of_required_none rfl nofun

theorem WellMarked.pickAdditionalProperties (hs : s.WellMarked) {names : List String}
    {extra : Option (List String)} (h : s.pickAdditionalProperties names extra = .ok t) :
    t.WellMarked := by
  obtain ⟨picked, hpicked, h⟩ := bind_eq_ok_iff.mp h
  have hkept := hs.keepProperties hpicked
  split at h
  · obtain rfl := Except.ok.inj h
    exact hkept
  · obtain rfl := Except.ok.inj h
    refine WellMarked.withAdditional ?_ nofun
    split
    · exact hkept
    · next u hu =>
      refine List.foldlRecOn _ _ hkept fun acc hacc name _ => ?_
      split
      · exact hacc
      · exact hacc.putProperty name (hs.undeclaredSchema? hu)

theorem WellMarked.omitProperties (hs : s.WellMarked) {names : List String}
    (h : s.omitProperties names = .ok t) : t.WellMarked := by
  obtain ⟨_, _, h⟩ := bind_eq_ok_iff.mp h
  exact hs.pickProperties h

/-! ### Changing the schema of a property -/

theorem WellMarked.modifyAll (hs : s.WellMarked) (names : List String) {f : Schema → Schema}
    (hf : ∀ c : Schema, c.WellMarked → (f c).WellMarked) :
    (names.foldl (fun s name => s.modifyProperty name f) s).WellMarked :=
  List.foldlRecOn names _ hs fun _ hacc name _ => hacc.modifyProperty name hf

theorem WellMarked.transformProperties (hs : s.WellMarked) (hu : u.WellMarked)
    {names : Option (List String)} (h : s.transformProperties u names = .ok t) : t.WellMarked := by
  obtain ⟨_, _, h⟩ := bind_eq_ok_iff.mp h
  obtain ⟨names, _, h⟩ := bind_eq_ok_iff.mp h
  obtain rfl := Except.ok.inj h
  exact hs.modifyAll names fun _ hc => hc.either hu

theorem WellMarked.orArray (hs : s.WellMarked) (constraints : Option ArrayFacets) :
    (s.orArray constraints).WellMarked := by
  rw [Schema.orArray]
  split
  · exact hs
  · exact hs.either ((wellMarked_arrayOf hs).of_nested rfl rfl)

theorem WellMarked.transformPropertiesToArray (hs : s.WellMarked) {names : Option (List String)}
    {constraints : Option ArrayFacets} (h : s.transformPropertiesToArray names constraints = .ok t) :
    t.WellMarked := by
  obtain ⟨_, _, h⟩ := bind_eq_ok_iff.mp h
  obtain ⟨names, _, h⟩ := bind_eq_ok_iff.mp h
  obtain rfl := Except.ok.inj h
  exact hs.modifyAll names fun _ hc => hc.orArray constraints

/-- The element of a union with an array of it is one of the two branches. -/
theorem child_of_elementOfUnion? (h : s.elementOfUnion? = some t) : Child t s := by
  rw [elementOfUnion?] at h
  have hbranch : ∀ ts, (s.anyOf <|> s.oneOf) = some ts → t ∈ ts → Child t s := by
    intro ts hts ht
    have hor : s.anyOf.or s.oneOf = some ts := by simpa using hts
    rcases Option.or_eq_some_iff.mp hor with hany | ⟨_, hone⟩
    · exact .anyOf hany ht
    · exact .oneOf hone ht
  split at h
  · next first second hts =>
    refine hbranch [first, second] hts ?_
    split at h
    · cases h
      simp
    · split at h
      · cases h
        simp
      · cases h
  · cases h

theorem WellMarked.unwrapArray (hs : s.WellMarked) : s.unwrapArray.WellMarked := by
  rw [Schema.unwrapArray]
  cases h : s.elementOfUnion? with
  | none => exact hs
  | some t => exact hs.child (child_of_elementOfUnion? h)

theorem WellMarked.unwrapArrayProperties (hs : s.WellMarked) {names : Option (List String)}
    (h : s.unwrapArrayProperties names = .ok t) : t.WellMarked := by
  obtain ⟨_, _, h⟩ := bind_eq_ok_iff.mp h
  obtain ⟨names, _, h⟩ := bind_eq_ok_iff.mp h
  obtain rfl := Except.ok.inj h
  exact hs.modifyAll names fun _ hc => hc.unwrapArray

theorem WellMarked.replacePropertyWith (hs : s.WellMarked) {name : String}
    {f : Schema → Except ReshapeError Schema}
    (hf : ∀ c c' : Schema, c.WellMarked → f c = .ok c' → c'.WellMarked)
    (h : s.replacePropertyWith name f = .ok t) : t.WellMarked := by
  obtain ⟨old, hold, h⟩ := bind_eq_ok_iff.mp h
  obtain ⟨new, hnew, h⟩ := bind_eq_ok_iff.mp h
  obtain rfl := Except.ok.inj h
  refine hs.putProperty name (hf old new ?_ hnew)
  obtain ⟨_, _, hold⟩ := bind_eq_ok_iff.mp hold
  split at hold
  · next hget =>
    obtain rfl := Except.ok.inj hold
    exact hs.properties _ (Entries.mem_of_get? hget)
  · cases hold

theorem WellMarked.addOrReplaceProperty (hs : s.WellMarked) (hu : u.WellMarked) {name : String}
    (h : s.addOrReplaceProperty name u = .ok t) : t.WellMarked := by
  obtain ⟨_, _, h⟩ := bind_eq_ok_iff.mp h
  split at h
  · obtain rfl := Except.ok.inj h
    exact hs.putProperty name hu
  · exact hs.addProperty hu h

/-! ### Members beyond the properties -/

theorem WellMarked.addAdditionalProperties (hs : s.WellMarked) {child : Option Schema}
    (hchild : ∀ u ∈ child, u.WellMarked) (h : s.addAdditionalProperties child = .ok t) :
    t.WellMarked := by
  obtain ⟨_, _, h⟩ := bind_eq_ok_iff.mp h
  split at h
  · cases h
  · obtain rfl := Except.ok.inj h
    refine hs.withAdditional ?_
    cases child with
    | none => exact nofun
    | some u =>
      rintro v ⟨⟩
      exact hchild u rfl

theorem WellMarked.addPatternProperty [Pattern.Engine] (hs : s.WellMarked) (hu : u.WellMarked)
    {start suffix : String} (h : s.addPatternProperty start suffix u = .ok t) : t.WellMarked := by
  obtain ⟨_, _, h⟩ := bind_eq_ok_iff.mp h
  dsimp only at h
  split at h
  · cases h
  split at h
  · cases h
  obtain rfl := Except.ok.inj h
  obtain ⟨⟨hne, hnodup, hdeclared⟩, hchildren⟩ := (wellMarked_iff s).mp hs
  obtain ⟨hp, hpp, hrest⟩ := forall_child_iff.mp hchildren
  refine (wellMarked_iff _).mpr ⟨⟨hne, hnodup, hdeclared⟩, forall_child_iff.mpr ⟨hp, ?_, hrest⟩⟩
  intro e he
  rcases Entries.mem_put he with rfl | hold
  · exact hu
  · exact hpp e hold

/-! ### Relaxing -/

theorem wellMarked_toOptionals (hs : ∀ t, Child t s → t.WellMarked) : s.toOptionals.WellMarked := by
  obtain ⟨hp, hrest⟩ := forall_child_iff.mp hs
  refine (wellMarked_iff _).mpr
    ⟨⟨nofun, List.nodup_nil, nofun⟩, forall_child_iff.mpr ⟨fun e he => ?_, hrest⟩⟩
  obtain ⟨e', he', rfl⟩ := List.mem_map.mp he
  exact (hp e' he').withoutDefault

theorem WellMarked.toNullable (hs : s.WellMarked) : s.toNullable.WellMarked := by
  rw [Schema.toNullable]
  split
  · exact hs
  · exact hs.withNullable true

/-! ### Relaxing at every depth -/

/-- Whatever the schema requires at any depth, it requires nothing there afterwards. -/
theorem wellMarked_toDeepOptionals (s : Schema) : s.toDeepOptionals.WellMarked := by
  induction s using Schema.induction with
  | step s ih =>
    rw [toDeepOptionals_eq]
    exact wellMarked_toOptionals (forall_child_mapChildren.mpr ih)

/-- The properties keep their names, so a marked name stays declared. -/
theorem WellMarked.mapChildren (hs : s.WellMarked) {f : Schema → Schema}
    (hf : ∀ t, Child t s → (f t).WellMarked) : (s.mapChildren f).WellMarked := by
  obtain ⟨hne, hnodup, hdeclared⟩ := hs.marked
  refine (wellMarked_iff _).mpr ⟨⟨hne, hnodup, fun name hname => ?_⟩, forall_child_mapChildren.mpr hf⟩
  rw [declares_mapChildren, hdeclared name hname]

theorem WellMarked.toDeepNullable (hs : s.WellMarked) : s.toDeepNullable.WellMarked := by
  induction s using Schema.induction with
  | step s ih =>
    rw [toDeepNullable_eq]
    split
    · exact hs.toNullable
    · exact (hs.mapChildren fun t ht => ih t ht (hs.child ht)).toNullable

/-! ### Merging -/

theorem wellMarked_resolve (strategy : MergeStrategy) (hs : s.WellMarked) (ht : t.WellMarked) :
    (strategy.resolve s t).WellMarked := by
  cases strategy with
  | intersect =>
    rw [MergeStrategy.resolve]
    split
    · exact hs
    · exact hs.either ht
  | merge =>
    rw [MergeStrategy.resolve]
    split
    · exact hs
    · exact hs.either ht
  | overwrite => exact ht

theorem WellMarked.mergeProperty (hs : s.WellMarked) (strategy : MergeStrategy)
    (required : List String) {entry : String × Schema} (hentry : entry.2.WellMarked) :
    (s.mergeProperty strategy required entry).WellMarked := by
  obtain ⟨name, incoming⟩ := entry
  have hmark : ∀ next : Schema, next.WellMarked ∧ next.declares name = true →
      (if required.contains name then next.markRequired name else next).WellMarked := by
    rintro next ⟨hnext, hname⟩
    split
    · exact hnext.markRequired hname
    · exact hnext
  refine hmark _ ?_
  split
  · exact ⟨hs.putProperty name hentry, by simp⟩
  · next existing hget =>
    have hexisting := hs.properties _ (Entries.mem_of_get? hget)
    have hkept := hs.putProperty name (wellMarked_resolve strategy hexisting hentry)
    split
    · exact ⟨hkept.unmarkRequired name, by simp⟩
    · exact ⟨hkept, by simp⟩

theorem WellMarked.merge (hs : s.WellMarked) (hu : u.WellMarked) {strategy : MergeStrategy}
    (h : merge strategy s u = .ok t) : t.WellMarked := by
  obtain ⟨_, _, h⟩ := bind_eq_ok_iff.mp h
  obtain ⟨_, _, h⟩ := bind_eq_ok_iff.mp h
  obtain rfl := Except.ok.inj h
  exact List.foldlRecOn u.properties _ hs fun _ hacc e he =>
    hacc.mergeProperty strategy u.requiredNames (hu.properties e he)

end Schema

end DataSchema
