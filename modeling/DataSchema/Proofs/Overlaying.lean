import DataSchema.Proofs.Merging
import DataSchema.Proofs.Sameness

/-!
Which properties a merge leaves, and in which order.

The properties of the base keep their place and those that only the overlay declares come after them
(`Schema.keys_foldl_mergeProperty`). With what is known of each name alone this tells the merged schema
apart from any other (`Schema.Overlaid`, `Schema.Merges.overlaid`). A schema that is merged with itself stays
as it is, since a schema in which no key stands twice is the same as itself (`Schema.same_self`), its bounds
being finite numbers.
-/

namespace DataSchema

namespace Schema

variable {strategy : MergeStrategy} {base overlay merged s t : Schema}

/-! ### The same schema -/

/-- No map in the schema or below it has a key twice, nor has any value that it compares, fills in or
shows. -/
def KeysUnique (s : Schema) : Prop :=
  s.Distinct ∧ ∀ t, Within t s →
    (∀ d ∈ t.default, d.WellKeyed) ∧ ∀ xs ∈ t.metadata.examples, ∀ x ∈ xs, x.WellKeyed

theorem KeysUnique.child (h : s.KeysUnique) (ht : Child t s) : t.KeysUnique :=
  ⟨fun u hu => h.1 u (.step ht hu), fun u hu => h.2 u (.step ht hu)⟩

/-- A schema that has no map and no value of its own is as its children are. -/
theorem KeysUnique.of_children (hproperties : s.properties = []) (hpatterns : s.patternProperties = [])
    (hconst : s.const = none) (henum : s.enum = none) (hdefault : s.default = none)
    (hexamples : s.metadata.examples = none) (h : ∀ t, Child t s → t.KeysUnique) : s.KeysUnique := by
  constructor
  · intro u hu
    cases hu with
    | refl =>
      rw [hproperties, hpatterns, hconst, henum]
      exact ⟨List.nodup_nil, List.nodup_nil, nofun, nofun⟩
    | step hchild hwithin => exact (h _ hchild).1 u hwithin
  · intro u hu
    cases hu with
    | refl =>
      rw [hdefault, hexamples]
      exact ⟨nofun, nofun⟩
    | step hchild hwithin => exact (h _ hchild).2 u hwithin

theorem sameFacets_self (h : s.KeysUnique) : s.sameFacets s = true := by
  obtain ⟨-, -, hconst, henum⟩ := h.1 s (.refl s)
  obtain ⟨hdefault, hexamples⟩ := h.2 s (.refl s)
  have hvalue : ∀ {x : Option Json}, (∀ c ∈ x, c.WellKeyed) → sameValue x x = true := fun hx =>
    sameValue_iff.mpr (rel_same fun c hc => c.same_self (hx c hc))
  have hvalues : ∀ {xs : Option (List Json)}, (∀ cs ∈ xs, ∀ c ∈ cs, c.WellKeyed) →
      sameValues xs xs = true := fun hxs =>
    sameValues_iff.mpr (rel_same fun cs hcs => List.forall₂_same.mpr fun c hc => c.same_self (hxs cs hcs c hc))
  have hbound : ∀ x : Option Binary64, sameBound x x = true := fun x =>
    sameBound_iff.mpr (rel_same fun _ _ => rfl)
  simp [sameFacets, NumberFacets.same, Metadata.same, hvalue hconst, hvalue hdefault, hvalues henum,
    hvalues hexamples, hbound]

theorem same_self (s : Schema) : s.KeysUnique → s.same s = true := by
  induction s using Schema.induction with
  | step s ih =>
    intro h
    have hchild : ∀ c, Child c s → c.same c = true := fun c hc => ih c hc (h.child hc)
    have hentries : ∀ {ps : List (String × Schema)}, (Entries.keys ps).Nodup →
        (∀ e ∈ ps, Child e.2 s) → sameEntries ps ps = true := fun hkeys hps =>
      (sameEntries_iff _ _).mpr fun e he => ⟨e.2, Entries.get?_of_mem hkeys he, hchild e.2 (hps e he)⟩
    have hadditional : sameAdditional s.additional s.additional = true := by
      cases hs : s.additional with
      | schema c =>
        rw [sameAdditional]
        exact hchild c (.additional hs)
      | _ => simp [sameAdditional]
    have hoption : ∀ {x : Option Schema}, (∀ c ∈ x, Child c s) → sameOption x x = true := fun hx =>
      sameOption_iff.mpr (rel_same fun c hc => hchild c (hx c hc))
    have hbranches : ∀ {x : Option (List Schema)}, (∀ cs ∈ x, ∀ c ∈ cs, Child c s) →
        sameBranches x x = true := fun hx =>
      sameBranches_iff.mpr
        (rel_same fun cs hcs => List.forall₂_same.mpr fun c hc => hchild c (hx cs hcs c hc))
    obtain ⟨hproperties, hpatterns, -⟩ := h.1 s (.refl s)
    simp only [same_eq, sameFacets_self h, hentries hproperties fun _ => .property,
      hentries hpatterns fun _ => .pattern, hadditional, hoption fun _ => .items, hoption fun _ => .not,
      hbranches fun _ hs _ => .oneOf hs, hbranches fun _ hs _ => .allOf hs,
      hbranches fun _ hs _ => .anyOf hs, beq_self_eq_true, Bool.and_self]

/-! ### The order of names -/

theorem keys_foldl_mergeProperty (strategy : MergeStrategy) (required : List String) (base : Schema) :
    ∀ ps : List (String × Schema), (Entries.keys ps).Nodup →
      (ps.foldl (mergeProperty strategy required) base).propertyNames =
        base.propertyNames ++ (Entries.keys ps).filter fun name => !base.declares name := by
  intro ps hps
  induction ps using List.reverseRecOn with
  | nil => exact (List.append_nil _).symm
  | append_singleton ps e ih =>
    rw [Entries.keys_append, List.nodup_append] at hps
    obtain ⟨hinit, -, hdisjoint⟩ := hps
    have hfresh : e.1 ∉ Entries.keys ps := fun hmem => hdisjoint _ hmem _ List.mem_cons_self rfl
    have hnames := ih hinit
    rw [propertyNames] at hnames
    rw [List.foldl_append, List.foldl_cons, List.foldl_nil, propertyNames, properties_mergeProperty,
      Entries.keys_put, hnames, Entries.keys_append, List.filter_append]
    by_cases hdeclared : base.declares e.1 = true
    · have hmem : e.1 ∈ base.propertyNames := (Entries.has_iff _ _).mp hdeclared
      rw [if_pos (List.mem_append_left _ hmem)]
      simp [Entries.keys, hdeclared]
    · have hmem : e.1 ∉ base.propertyNames := mt (Entries.has_iff _ _).mpr hdeclared
      rw [if_neg fun h => (List.mem_append.mp h).elim hmem fun h => hfresh (List.mem_filter.mp h).1]
      simp [Entries.keys, hdeclared]

/-! ### What a merge leaves -/

/-- What merging the properties of the overlay into the base makes of the base. -/
structure Overlaid (strategy : MergeStrategy) (base overlay merged : Schema) : Prop where
  /-- The names of the base in their order, then those that only the overlay declares in theirs. -/
  names : merged.propertyNames =
    base.propertyNames ++ overlay.propertyNames.filter fun name => !base.declares name
  baseOnly : ∀ name, overlay.declares name = false →
    Entries.get? merged.properties name = Entries.get? base.properties name
  overlayOnly : ∀ name, base.declares name = false →
    Entries.get? merged.properties name = Entries.get? overlay.properties name
  both : ∀ name c u, Entries.get? base.properties name = some c →
    Entries.get? overlay.properties name = some u →
      Entries.get? merged.properties name = some (match strategy with
        | .intersect => if c.kind = u.kind then c else { anyOf := some [c, u] }
        | .merge => if c.same u = true then c else { anyOf := some [c, u] }
        | .overwrite => u)
  requiredByEither : strategy ≠ .overwrite → ∀ name,
    merged.isRequired name = true ↔ base.isRequired name = true ∨ overlay.isRequired name = true
  /-- Who declares a property last says whether it is required. -/
  requiredByLast : strategy = .overwrite → ∀ name, merged.isRequired name = true ↔
    (overlay.declares name = true ∧ overlay.isRequired name = true) ∨
      (base.declares name = true ∧ overlay.declares name = false ∧ base.isRequired name = true)
  rest : merged = { base with properties := merged.properties, required := merged.required }

/-- A simple object schema that declares no name twice and requires declared names only. -/
structure IsRecord (s : Schema) : Prop where
  simple : s.isSimpleObject = true
  names : (Entries.keys s.properties).Nodup
  required : ∀ name ∈ s.requiredNames, s.declares name = true

theorem Merges.overlaid (h : Merges strategy base overlay.properties overlay.requiredNames merged)
    (hnames : merged.propertyNames =
      base.propertyNames ++ overlay.propertyNames.filter fun name => !base.declares name)
    (hbase : base.IsRecord) (hoverlay : overlay.IsRecord) : Overlaid strategy base overlay merged where
  names := hnames
  baseOnly name hname := by
    rw [Schema.declares, Entries.has, Option.isSome_eq_false_iff, Option.isNone_iff_eq_none] at hname
    rw [h.property, hname, Option.merge_none_right]
  overlayOnly name hname := by
    rw [Schema.declares, Entries.has, Option.isSome_eq_false_iff, Option.isNone_iff_eq_none] at hname
    rw [h.property, hname, Option.merge_none_left]
  both name c u hc hu := by
    rw [h.property, hc, hu]
    cases strategy <;> rfl
  requiredByEither hstrategy name := by
    simp only [isRequired, List.contains_iff_mem]
    have hkeys : name ∈ overlay.requiredNames → name ∈ Entries.keys overlay.properties := fun hname =>
      (Entries.has_iff _ _).mp (hoverlay.required name hname)
    rw [h.required, and_iff_right_of_imp hkeys, and_iff_left fun hboth => hstrategy hboth.1, or_comm]
  requiredByLast hstrategy name := by
    have hkeys : name ∈ Entries.keys overlay.properties ↔ overlay.declares name = true :=
      (Entries.has_iff _ _).symm
    simp only [isRequired, List.contains_iff_mem]
    rw [h.required, and_iff_right hstrategy, hkeys]
    refine or_congr_right ?_
    constructor
    · rintro ⟨hname, hnot⟩
      have hdeclared := hbase.required name hname
      exact ⟨hdeclared, Bool.eq_false_iff.mpr fun hoverlays => hnot ⟨hdeclared, hoverlays⟩, hname⟩
    · rintro ⟨-, hnot, hname⟩
      refine ⟨hname, fun hboth => ?_⟩
      exact absurd (hboth.2.symm.trans hnot) (by decide)
  rest := h.rest

/-- A schema that is merged with itself stays as it is: every property is resolved with itself, and is
required as before. -/
theorem merge_self (strategy : MergeStrategy) (hsimple : s.isSimpleObject = true) (h : s.KeysUnique) :
    s.merge strategy s = .ok s := by
  have hnames : (Entries.keys s.properties).Nodup := (h.1 s (.refl s)).1
  have hstep : ∀ e ∈ s.properties, mergeProperty strategy s.requiredNames s e = s := by
    rintro ⟨name, c⟩ he
    have hget := Entries.get?_of_mem hnames he
    have hresolve : strategy.resolve c c = c := by
      cases strategy with
      | intersect => exact if_pos rfl
      | merge => exact if_pos (c.same_self (h.child (.property he)))
      | overwrite => rfl
    have hput : s.putProperty name c = s := by
      rw [putProperty, Entries.put_of_get? hget]
      cases s
      rfl
    rw [mergeProperty]
    dsimp only
    rw [hget]
    dsimp only
    rw [hresolve, hput]
    by_cases hrequired : s.requiredNames.contains name = true
    · rw [if_pos hrequired, if_neg fun hloses => hloses.2 hrequired, markRequired]
      exact if_pos hrequired
    · have hunmarked : s.unmarkRequired name = s := if_neg hrequired
      rw [if_neg hrequired, hunmarked, ite_self]
  rw [merge_eq_ok strategy hsimple hsimple]
  refine congrArg Except.ok (List.foldlRecOn (motive := fun merged => merged = s) s.properties _ rfl ?_)
  rintro merged rfl e he
  exact hstep e he

/-- Two simple object schemas are merged name by name, in the order of the base and then of the overlay, and
merging a simple object schema with itself leaves it as it is. -/
theorem merge_overlaid (strategy : MergeStrategy) :
    (∀ base overlay, base.IsRecord → overlay.IsRecord →
      ∃ merged, base.merge strategy overlay = .ok merged ∧ Overlaid strategy base overlay merged) ∧
    ∀ s : Schema, s.isSimpleObject = true → s.KeysUnique → s.merge strategy s = .ok s := by
  refine ⟨fun base overlay hbase hoverlay => ?_, fun s => merge_self strategy⟩
  refine ⟨_, merge_eq_ok strategy hbase.simple hoverlay.simple, ?_⟩
  exact (merges_foldl strategy _ hbase.names _ hoverlay.names).overlaid
    (keys_foldl_mergeProperty strategy _ base _ hoverlay.names) hbase hoverlay

/-- A title of a text and a year, of which only the title is required. -/
def book : Schema where
  kind := some .object
  additional := .allowed false
  properties := [("title", Schema.ofKind .string), ("year", Schema.ofKind .integer)]
  required := some ["title"]

/-- A required year that is a text, and a place. -/
def imprint : Schema where
  kind := some .object
  additional := .allowed false
  properties := [("place", Schema.ofKind .string), ("year", Schema.ofKind .string)]
  required := some ["year"]

/-- The year becomes a union where it is not overwritten, and is required in each merge. -/
theorem merge_overlaid_imprint :
    (∃ merged, book.merge .intersect imprint = .ok merged ∧
      merged.propertyNames = ["title", "year", "place"] ∧
      Entries.get? merged.properties "year" =
        some { anyOf := some [Schema.ofKind .integer, Schema.ofKind .string] } ∧
      merged.isRequired "year" = true) ∧
    (∃ merged, book.merge .overwrite imprint = .ok merged ∧
      Entries.get? merged.properties "year" = some (Schema.ofKind .string) ∧
      merged.isRequired "year" = true ∧ merged.isRequired "title" = true) ∧
    book.merge .merge book = .ok book := by
  have hbook : book.IsRecord := ⟨rfl, by decide, by decide⟩
  have himprint : imprint.IsRecord := ⟨rfl, by decide, by decide⟩
  obtain ⟨merged, hmerge, h⟩ := (merge_overlaid .intersect).1 book imprint hbook himprint
  obtain ⟨merged', hmerge', h'⟩ := (merge_overlaid .overwrite).1 book imprint hbook himprint
  refine ⟨⟨merged, hmerge, h.names, h.both "year" _ _ rfl rfl, ?_⟩,
    ⟨merged', hmerge', h'.both "year" _ _ rfl rfl, ?_, ?_⟩, (merge_overlaid .merge).2 book rfl ?_⟩
  · exact (h.requiredByEither nofun "year").mpr (.inr rfl)
  · exact (h'.requiredByLast rfl "year").mpr (.inl ⟨rfl, rfl⟩)
  · exact (h'.requiredByLast rfl "title").mpr (.inr ⟨rfl, rfl, rfl⟩)
  · exact ⟨of_allWithin 2 (by decide), of_allWithin 2 (by decide)⟩

end Schema

end DataSchema
