import DataSchema.Pattern.Reader
import DataSchema.Proofs.BreakingOff
import DataSchema.Proofs.Merging
import DataSchema.Proofs.Objects
import DataSchema.Proofs.Sameness

/-!
What merged object schemas accept.

A property that both schemas declare is kept where the two are the same, and else becomes the union; either
way its member is accepted if one of them accepts it (`Schema.accepts_resolve`). So the merged schema asks
of an object what the two ask together (`Schema.TogetherHold`, `Validator.report_merged`).
-/

namespace DataSchema

namespace Schema

variable [Pattern.Engine]
variable {strategy : MergeStrategy} {base overlay merged c u : Schema} {ps : List (String × Schema)}
  {required : List String} {name : String} {value : Json} {members : List (String × Json)}

theorem accepts_either : (either c u).Accepts value ↔ c.Accepts value ∨ u.Accepts value := by
  have hparts : ∀ t x, ¬ (either c u).Part value t x := fun t x hpart => nomatch hpart
  have hown : (either c u).OwnHold value :=
    ⟨nofun, nofun, nofun, contentHold_of_no_facets rfl rfl rfl rfl rfl rfl⟩
  rw [either] at hparts hown ⊢
  rw [Accepts]
  simp [hparts, hown]

/-- Whichever of the two a merge takes for a property, what either schema accepts is accepted. -/
theorem accepts_resolve (hc : c.Distinct) :
    (MergeStrategy.merge.resolve c u).Accepts value ↔ c.Accepts value ∨ u.Accepts value := by
  rw [MergeStrategy.resolve]
  split
  · next h => rw [← accepts_of_same c hc h value, or_self]
  · exact accepts_either

/-- What two merged object schemas ask of the members of an object. -/
structure TogetherHold (base overlay : Schema) (members : List (String × Json)) : Prop where
  baseRequired : ∀ name ∈ base.requiredNames, Entries.has members name = true
  overlayRequired : ∀ name ∈ overlay.requiredNames, overlay.declares name = true →
    Entries.has members name = true
  /-- A declared member is accepted by a property of a schema that declares it. -/
  declared : ∀ e ∈ members, base.declares e.1 = true ∨ overlay.declares e.1 = true →
    ∃ t, (Entries.get? base.properties e.1 = some t ∨ Entries.get? overlay.properties e.1 = some t) ∧
      t.Accepts e.2
  /-- Any other member has a key that the base has a pattern for, and is accepted by all such. -/
  others : ∀ e ∈ members, base.declares e.1 = false → overlay.declares e.1 = false →
    base.matchesKey e.1 = true ∧
      ∀ p ∈ base.patternProperties, Pattern.accepts p.1 e.1 = true → p.2.Accepts e.2
  const : ∀ c ∈ base.const, Json.equivalent c (.object members) = true
  enum : ∀ cs ∈ base.enum, ∃ c ∈ cs, Json.equivalent c (.object members) = true
  counts : base.object.Hold members

omit [Pattern.Engine] in
theorem timeless_resolve {s t : Schema} (strategy : MergeStrategy) (hs : s.Timeless) (ht : t.Timeless) :
    (strategy.resolve s t).Timeless := by
  have hboth : (either s t).Timeless :=
    timeless_iff.mpr ⟨nofun, by simp [forall_child_iff, either, hs, ht]⟩
  cases strategy with
  | overwrite => exact ht
  | _ =>
    rw [MergeStrategy.resolve]
    split
    · exact hs
    · exact hboth

namespace Merges

omit [Pattern.Engine] in
theorem isObject (h : Merges strategy base ps required merged) (hbase : base.isObject = true) :
    merged.isObject = true := by
  have hkind : merged.kind = base.kind := by rw [h.rest]
  rw [Schema.isObject, hkind]
  rw [Schema.isObject] at hbase
  cases hk : base.kind with
  | some kind => rwa [hk] at hbase
  | none =>
    rw [hk] at hbase
    cases hp : base.properties with
    | nil =>
      rw [hp] at hbase
      cases hbase
    | cons e rest =>
      have hdeclares := h.declares e.1
      rw [Schema.declares, Schema.declares, hp, Entries.has, Entries.has, Entries.get?_cons,
        if_pos rfl] at hdeclares
      cases hm : merged.properties with
      | nil => simp [hm] at hdeclares
      | cons _ _ => rfl

/-- A key that the merged schema declares: its member is accepted by the property. -/
theorem accepts_declared_iff (h : Merges strategy base ps required merged) {t : Schema}
    (ht : Entries.get? merged.properties name = some t) :
    (merged.isExtra name = false ∧ ∀ u ∈ merged.governing name, u.Accepts value) ↔ t.Accepts value := by
  rw [governing_of_declared h.names ht, isExtra, Schema.declares_of_get? ht]
  simp

/-- A key that the merged schema does not declare: its member is accepted by the base's patterns. -/
theorem accepts_undeclared_iff (h : Merges strategy base ps required merged)
    (hclosed : base.isOpen = false) (hname : merged.declares name = false) :
    (merged.isExtra name = false ∧ ∀ u ∈ merged.governing name, u.Accepts value) ↔
      base.matchesKey name = true ∧
        ∀ p ∈ base.patternProperties, Pattern.accepts p.1 name = true → p.2.Accepts value := by
  have hadditional : base.additional = .allowed false := by
    rw [isOpen] at hclosed
    split at hclosed
    · assumption
    · cases hclosed
  have hpatterns : merged.patternProperties = base.patternProperties := by rw [h.rest]
  have hadditional' : merged.additional = .allowed false := by rw [h.rest, ← hadditional]
  have hextra : merged.isExtra name = false ↔ base.matchesKey name = true := by
    rw [isExtra, hname, matchesKey, hpatterns, ← matchesKey]
    simp
  have hgoverning : merged.governing name =
      (base.patternProperties.filter (Pattern.accepts ·.1 name)).map (·.2) := by
    rw [governing_of_undeclared hname, hpatterns, hadditional']
    exact List.append_nil _
  rw [hextra, hgoverning, List.forall_mem_map, List.forall_mem_filter]

theorem accepts_member_iff (h : Merges .merge base overlay.properties overlay.requiredNames merged)
    (hclosed : base.isOpen = false) (hdistinct : base.Distinct) (e : String × Json) :
    (merged.isExtra e.1 = false ∧ ∀ t ∈ merged.governing e.1, t.Accepts e.2) ↔
      (base.declares e.1 = true ∨ overlay.declares e.1 = true →
        ∃ t, (Entries.get? base.properties e.1 = some t ∨ Entries.get? overlay.properties e.1 = some t) ∧
          t.Accepts e.2) ∧
      (base.declares e.1 = false → overlay.declares e.1 = false → base.matchesKey e.1 = true ∧
        ∀ p ∈ base.patternProperties, Pattern.accepts p.1 e.1 = true → p.2.Accepts e.2) := by
  have hproperty := h.property e.1
  rw [Schema.declares, Entries.has, Schema.declares, Entries.has]
  cases hc : Entries.get? base.properties e.1 with
  | none =>
    cases hu : Entries.get? overlay.properties e.1 with
    | none =>
      rw [hc, hu, Option.merge_none_left] at hproperty
      rw [h.accepts_undeclared_iff hclosed (Schema.not_declares_of_get? hproperty)]
      simp
    | some u =>
      rw [hc, hu, Option.merge_none_left] at hproperty
      rw [h.accepts_declared_iff hproperty]
      simp
  | some c =>
    have hchild : c.Distinct := fun t ht =>
      hdistinct t (.step (.property (Entries.mem_of_get? hc)) ht)
    cases hu : Entries.get? overlay.properties e.1 with
    | none =>
      rw [hc, hu, Option.merge_none_right] at hproperty
      rw [h.accepts_declared_iff hproperty]
      simp
    | some u =>
      rw [hc, hu] at hproperty
      rw [h.accepts_declared_iff hproperty, accepts_resolve hchild]
      simp [or_and_right, exists_or]

theorem keysHold_iff (h : Merges .merge base overlay.properties overlay.requiredNames merged)
    (hclosed : base.isOpen = false) : merged.KeysHold members ↔
      ((∀ name ∈ base.requiredNames, Entries.has members name = true) ∧
        ∀ name ∈ overlay.requiredNames, overlay.declares name = true →
          Entries.has members name = true) ∧
      base.object.Hold members ∧ ∀ e ∈ members, merged.isExtra e.1 = false := by
  have hfields : merged.object = base.object ∧ merged.isOpen = false := by
    rw [h.rest]
    exact ⟨rfl, hclosed⟩
  have hrequires : ∀ name, name ∈ merged.requiredNames ↔
      name ∈ base.requiredNames ∨ name ∈ overlay.requiredNames ∧ overlay.declares name = true := by
    intro name
    rw [h.required, or_comm, and_iff_left nofun, and_comm (a := name ∈ Entries.keys overlay.properties),
      Schema.declares, Entries.has_iff]
  constructor
  · rintro ⟨hrequired, hcounts, hextra⟩
    exact ⟨⟨fun name hname => hrequired name ((hrequires name).mpr (.inl hname)),
      fun name hname hdeclares => hrequired name ((hrequires name).mpr (.inr ⟨hname, hdeclares⟩))⟩,
      hfields.1 ▸ hcounts, hextra hfields.2⟩
  · rintro ⟨⟨hrequired, hrequired'⟩, hcounts, hextra⟩
    refine ⟨fun name hname => ?_, hfields.1 ▸ hcounts, fun _ => hextra⟩
    rcases (hrequires name).mp hname with hbase | ⟨hoverlay, hdeclares⟩
    · exact hrequired name hbase
    · exact hrequired' name hoverlay hdeclares

/-- A merged schema accepts the objects that meet what the two schemas ask together. -/
theorem accepts_iff (h : Merges .merge base overlay.properties overlay.requiredNames merged)
    (hsimple : base.isSimpleObject = true) (hdistinct : base.Distinct)
    (hkeys : (Entries.keys members).Nodup) :
    merged.Accepts (.object members) ↔ base.TogetherHold overlay members := by
  obtain ⟨hobject, hclosed, hcombined⟩ := isSimpleObject_iff.mp hsimple
  have hcombined' : merged.hasCombination = false := by
    rw [h.rest]
    exact hcombined
  have hvalues : merged.const = base.const ∧ merged.enum = base.enum := by
    rw [h.rest]
    exact ⟨rfl, rfl⟩
  rw [readsParts_accepts.object_iff (h.isObject hobject) hcombined' hkeys, hvalues.1, hvalues.2,
    h.keysHold_iff hclosed]
  constructor
  · rintro ⟨hconst, henum, ⟨⟨hrequired, hrequired'⟩, hcounts, hextra⟩, hmembers⟩
    have hboth := fun e he => (h.accepts_member_iff hclosed hdistinct e).mp ⟨hextra e he, hmembers e he⟩
    exact ⟨hrequired, hrequired', fun e he => (hboth e he).1, fun e he => (hboth e he).2, hconst, henum,
      hcounts⟩
  · intro hold
    have hboth := fun e he => (h.accepts_member_iff hclosed hdistinct e).mpr
      ⟨hold.declared e he, hold.others e he⟩
    exact ⟨hold.const, hold.enum, ⟨⟨hold.baseRequired, hold.overlayRequired⟩, hold.counts,
      fun e he => (hboth e he).1⟩, fun e he => (hboth e he).2⟩

omit [Pattern.Engine] in
/-- The merged schema asks for a time only if one of the two does. -/
theorem timeless {strategy : MergeStrategy} {required : List String}
    (h : Merges strategy base overlay.properties required merged) (hbase : base.Timeless)
    (hoverlay : overlay.Timeless) : merged.Timeless := by
  obtain ⟨hown, hchildren⟩ := timeless_iff.mp hbase
  have hdeclared := (timeless_iff.mp hoverlay).2
  have hrest := forall_child_iff.mp hchildren
  refine timeless_iff.mpr ⟨by rw [h.rest]; exact hown, forall_child_iff.mpr ⟨fun e he => ?_, ?_⟩⟩
  · rcases h.property_cases he with ⟨hc, -⟩ | ⟨-, hu⟩ | ⟨c, u, hc, hu, hcu⟩
    · exact hrest.1 _ (Entries.mem_of_get? hc)
    · exact hdeclared _ (.property (Entries.mem_of_get? hu))
    · rw [← hcu]
      exact timeless_resolve strategy (hrest.1 _ (Entries.mem_of_get? hc))
        (hdeclared _ (.property (Entries.mem_of_get? hu)))
  · rw [h.rest]
    exact hrest.2

end Merges

end Schema

namespace Validator

/-- Two simple object schemas that compile can be merged, and the merged schema compiles; of the objects on
which its run comes to an end, it takes those that meet what the two schemas ask together. The run always
does if neither schema asks for a time. -/
theorem report_merged [Pattern.Engine] {base overlay : Schema} {o : Options} {v u : Validator}
    (hbase : compile base o.plain = .ok v) (hoverlay : compile overlay o.plain = .ok u)
    (hsimple : base.isSimpleObject = true) (hsimple' : overlay.isSimpleObject = true)
    (hdistinct : base.Distinct) (hnames : (Entries.keys overlay.properties).Nodup) :
    ∃ merged w, base.merge .merge overlay = .ok merged ∧ compile merged o.plain = .ok w ∧
      (∀ members, (Entries.keys members).Nodup → ∀ r, w.validate? (.object members) = some r →
        (r.issues = [] ↔ base.TogetherHold overlay members)) ∧
      (base.Timeless → overlay.Timeless → ∀ value, ∃ r, w.validate? value = some r) := by
  have hdeclared := (hdistinct base (.refl base)).1
  obtain ⟨merged, hmerge, h⟩ := Schema.exists_merge .merge hsimple hsimple' hdeclared hnames
  have hcompiled := compile_of_check (h.check (check_of_compile hbase) (check_of_compile hoverlay))
  refine ⟨merged, _, hmerge, hcompiled, fun members hkeys r hr => ?_,
    fun htimeless htimeless' => exists_report (h.timeless htimeless htimeless')⟩
  obtain ⟨-, rfl⟩ := validate?_eq_some.mp hr
  rw [(validate_plain_iff hcompiled _).1, h.accepts_iff hsimple hdistinct hkeys]

/-- A numbered total, with remarks under keys that begin with an x and a dash. -/
def invoice : Schema where
  kind := some .object
  additional := .allowed false
  properties := [("id", Schema.ofKind .integer), ("total", Schema.ofKind .number)]
  required := some ["id"]
  patternProperties := [("^x-", Schema.ofKind .string)]

/-- A numbered total that is a text, and whether it was paid. -/
def receipt : Schema where
  kind := some .object
  additional := .allowed false
  properties := [("paid", Schema.ofKind .boolean), ("total", Schema.ofKind .string),
    ("id", Schema.ofKind .integer)]
  required := some ["paid"]

def paid : List (String × Json) :=
  [("paid", .bool true), ("id", .ofNat 7), ("x-by", .string "me"), ("total", .string "12")]

def untotalled : List (String × Json) :=
  [("paid", .bool true), ("id", .ofNat 7), ("total", .null)]

/-- Merged, they take a total of either kind, and no other. -/
theorem report_merged_receipt :
    ∃ merged w r r', invoice.merge .merge receipt = .ok merged ∧
      compile merged (Options.plain {}) = .ok w ∧
      w.validate? (.object paid) = some r ∧ r.issues = [] ∧
      w.validate? (.object untotalled) = some r' ∧ r'.issues ≠ [] := by
  have hbase : compile invoice (Options.plain {}) = .ok ⟨invoice, Options.plain {}, rfl⟩ := rfl
  have hoverlay : compile receipt (Options.plain {}) = .ok ⟨receipt, Options.plain {}, rfl⟩ := rfl
  obtain ⟨merged, w, hmerge, hw, h, hends⟩ := report_merged hbase hoverlay rfl rfl
    (Schema.of_allWithin 2 (by decide)) (by decide)
  cases hmerge
  have hends := hends (Schema.of_allWithin 2 (by decide)) (Schema.of_allWithin 2 (by decide))
  obtain ⟨r, hpaid⟩ := hends (.object paid)
  obtain ⟨r', huntotalled⟩ := hends (.object untotalled)
  refine ⟨_, _, _, _, rfl, hw, hpaid, (h paid (by decide) _ hpaid).mpr ?_, huntotalled,
    mt (h untotalled (by decide) _ huntotalled).mp fun hold => ?_⟩
  · have hkinds : (Json.bool true).hasKind .boolean = true ∧ (Json.ofNat 7).hasKind .integer = true ∧
        (Json.string "12").hasKind .string = true ∧ (Json.string "me").hasKind .string = true := by
      decide
    have hpattern : Pattern.accepts "^x-" "x-by" = true := by decide
    refine ⟨by decide, by decide, ?_, ?_, nofun, nofun, ⟨nofun, nofun⟩⟩
    · simp [invoice, receipt, paid, Schema.declares, Entries.has, Entries.get?_cons,
        Schema.accepts_ofKind, hkinds]
    · simp [invoice, receipt, paid, Schema.declares, Entries.has, Entries.get?_cons,
        Schema.accepts_ofKind, Schema.matchesKey, hpattern, hkinds]
  · obtain ⟨t, ht, haccepts⟩ := hold.declared ("total", .null) (by simp [untotalled]) (.inl rfl)
    rcases ht with ht | ht
    · cases ht
      cases Schema.accepts_ofKind.mp haccepts
    · cases ht
      cases Schema.accepts_ofKind.mp haccepts

/-- An object with one member, which the schema declares. -/
def lone (member : Schema) : Schema where
  kind := some .object
  additional := .allowed false
  properties := [("at", member)]

/-- The text is the overlay's to take, but the merged schema tries the time of the base first, and the run
breaks off there. -/
theorem together_not_passes :
    ¬ ∀ (base overlay merged : Schema) (o : Options) (v u w : Validator)
      (members : List (String × Json)), compile base o.plain = .ok v →
      compile overlay o.plain = .ok u → base.isSimpleObject = true → overlay.isSimpleObject = true →
      base.Distinct → (Entries.keys overlay.properties).Nodup →
      base.merge .merge overlay = .ok merged → compile merged o.plain = .ok w →
      (Entries.keys members).Nodup → base.TogetherHold overlay members → w.Passes (.object members) := by
  intro hall
  have htext : (Schema.ofKind .string).Accepts (.string Format.arabicTime) :=
    Schema.accepts_ofKind.mpr rfl
  have hold : (lone { text := { format := some "time" } }).TogetherHold (lone (Schema.ofKind .string))
      [("at", .string Format.arabicTime)] :=
    ⟨nofun, nofun, List.forall_mem_singleton.mpr fun _ => ⟨_, .inr rfl, htext⟩,
      List.forall_mem_singleton.mpr fun hbase => absurd hbase (by decide), nofun, nofun, ⟨nofun, nofun⟩⟩
  have hpasses := hall (lone { text := { format := some "time" } }) (lone (Schema.ofKind .string)) _ {}
    _ _ _ _ rfl rfl rfl rfl (Schema.of_allWithin 2 (by decide)) (by decide) rfl
    (compile_of_check (by decide +kernel)) (by decide) hold
  exact absurd (passes_iff.mp hpasses).1 (by decide +kernel)

end Validator

end DataSchema
