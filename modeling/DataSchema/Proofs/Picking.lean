import DataSchema.Pattern.Reader
import DataSchema.Proofs.Objects
import DataSchema.Proofs.Reshaping
import DataSchema.Proofs.Strictness

/-!
Picking properties.

A schema from which some properties are picked keeps everything else, and what it requires of the picked
ones (`Schema.Picks`). It judges a member of a picked name by the same property, and a member of a name that
is not declared by the same patterns; only what it says of extra members depends on the form of picking
(`Schema.Picks.admits_of_open`, `Schema.Picks.admits_of_closed`). So an object without the members that were
left out is accepted as before (`Validator.validate_picked`).
-/

namespace DataSchema

namespace Schema

variable {A : Schema → Json → Prop} {s t u : Schema} {names extra : List String}
  {members : List (String × Json)}

/-! ### What is picked -/

/-- The schema with its required names cut down to the listed ones. -/
def requiringOnly (s : Schema) (names : List String) : Schema :=
  s.setRequired (s.requiredNames.filter names.contains)

/-- What picking makes of a schema: the named properties are kept, each extra name has the schema that
governed members beyond the properties, and the required names are cut down. -/
structure Picks (s : Schema) (names extra : List String) (t : Schema) : Prop where
  rest : t = { s.requiringOnly names with properties := t.properties, additional := t.additional }
  keys : (Entries.keys t.properties).Nodup
  property : ∀ key, Entries.get? t.properties key =
    if key ∈ names then Entries.get? s.properties key
    else if key ∈ extra then s.undeclaredSchema? else none

/-- The named properties and nothing else of the declarations. -/
def keeping (s : Schema) (names : List String) : Schema :=
  { s.requiringOnly names with properties := s.properties.filter (names.contains ·.1) }

theorem picks_keeping (hkeys : (Entries.keys s.properties).Nodup) (names : List String) :
    s.Picks names [] (s.keeping names) where
  rest := rfl
  keys := hkeys.sublist (List.filter_sublist.map Prod.fst)
  property key := by
    rw [keeping, Entries.get?_filter]
    simp

theorem Picks.withAdditional (h : s.Picks names extra t) (a : Additional Schema) :
    s.Picks names extra { t with additional := a } where
  rest := by rw [h.rest]
  keys := h.keys
  property := h.property

/-! ### Extra names -/

/-- Declares a name, unless it is declared. -/
def addMissing (u s : Schema) (name : String) : Schema :=
  if s.declares name then s else s.putProperty name u

/-- A name that was not declared is one more extra one. -/
theorem Picks.addMissing (h : s.Picks names extra t) (hu : s.undeclaredSchema? = some u) {name : String}
    (hname : name ∉ names) : s.Picks names (extra ++ [name]) (addMissing u t name) := by
  have hproperty := h.property name
  rw [if_neg hname, hu] at hproperty
  rw [Schema.addMissing]
  split
  · next hdeclared =>
    -- only an extra name can be declared already, and it has the same schema
    have hextra : name ∈ extra := by
      by_cases hextra : name ∈ extra
      · exact hextra
      · rw [if_neg hextra] at hproperty
        exact absurd (hdeclared.symm.trans (not_declares_of_get? hproperty)) (by decide)
    refine ⟨h.rest, h.keys, fun key => ?_⟩
    have hsame : key ∈ extra ++ [name] ↔ key ∈ extra := by
      rw [List.mem_append, List.mem_singleton, or_iff_left_of_imp fun hkey => hkey ▸ hextra]
    simp only [h.property, hsame]
  · refine ⟨by rw [putProperty, h.rest], Entries.nodup_keys_put h.keys _ _, fun key => ?_⟩
    rw [putProperty, Entries.get?_put, h.property]
    by_cases hkey : name = key
    · rw [if_pos hkey, ← hkey, if_neg hname, if_pos (by simp), hu]
    · simp [hkey, Ne.symm hkey]

theorem Picks.foldl_addMissing (hu : s.undeclaredSchema? = some u) :
    ∀ {extra : List String}, (∀ name ∈ extra, name ∉ names) → ∀ {before : List String} {t : Schema},
      s.Picks names before t → s.Picks names (before ++ extra) (extra.foldl (Schema.addMissing u) t)
  | [], _, before, _, h => by rwa [List.append_nil]
  | name :: rest, hnew, before, t, h => by
    rw [List.forall_mem_cons] at hnew
    have hrest := (h.addMissing hu hnew.1).foldl_addMissing hu hnew.2
    rwa [List.append_assoc] at hrest

/-- Where there may be no extra members, the extra names are not declared either. -/
theorem Picks.of_closed (h : s.Picks names [] t) (hclosed : s.undeclaredSchema? = none)
    (extra : List String) : s.Picks names extra t where
  rest := h.rest
  keys := h.keys
  property key := by
    rw [h.property, hclosed, ite_self]
    simp

/-! ### The operations -/

section Operations

variable (hobject : s.isObject = true) (hcombined : s.hasCombination = false)
  (hkeys : (Entries.keys s.properties).Nodup)

include hobject hcombined

theorem keepProperties_eq_ok (op : Operation) (hnames : ∀ name ∈ names, s.declares name = true) :
    s.keepProperties op names = .ok (s.keeping names) := by
  rw [keepProperties, ensureNoCombination_eq hobject hcombined, ensureDeclared_eq_ok_iff.mpr hnames]
  rfl

theorem pickProperties_eq_ok (hnames : ∀ name ∈ names, s.declares name = true) :
    s.pickProperties names = .ok { s.keeping names with additional := .allowed false } := by
  rw [pickProperties, keepProperties_eq_ok hobject hcombined .pick hnames]
  rfl

theorem pickAdditionalProperties_none (hnames : ∀ name ∈ names, s.declares name = true) :
    s.pickAdditionalProperties names none = .ok (s.keeping names) := by
  rw [pickAdditionalProperties, keepProperties_eq_ok hobject hcombined .pickAdditional hnames]
  rfl

theorem pickAdditionalProperties_nil (hnames : ∀ name ∈ names, s.declares name = true) :
    s.pickAdditionalProperties names (some []) = s.pickProperties names := by
  rw [pickAdditionalProperties, keepProperties_eq_ok hobject hcombined .pickAdditional hnames,
    pickProperties_eq_ok hobject hcombined hnames]
  cases hundeclared : s.undeclaredSchema? <;> rfl

theorem omitProperties_eq (dropped : List String) : s.omitProperties dropped =
    s.pickProperties (s.propertyNames.filter (!dropped.contains ·)) := by
  rw [omitProperties, ensureNoCombination_eq hobject hcombined]
  rfl

include hkeys

theorem exists_pickAdditionalProperties (hnames : ∀ name ∈ names, s.declares name = true)
    (hextra : ∀ name ∈ extra, name ∉ names) :
    ∃ t, s.pickAdditionalProperties names (some extra) = .ok t ∧ s.Picks names extra t ∧
      t.additional = .allowed false := by
  have hkeeping := picks_keeping hkeys names
  rw [pickAdditionalProperties, keepProperties_eq_ok hobject hcombined .pickAdditional hnames]
  cases hundeclared : s.undeclaredSchema? with
  | none => exact ⟨_, rfl, (hkeeping.of_closed hundeclared extra).withAdditional _, rfl⟩
  | some u => exact ⟨_, rfl, (hkeeping.foldl_addMissing hundeclared hextra).withAdditional _, rfl⟩

end Operations

/-! ### Members -/

variable [Pattern.Engine]

/-- A schema that says nothing is content with everything. -/
theorem ReadsParts.of_empty (hA : ReadsParts A) (value : Json) : A {} value := by
  refine (hA rfl value).mpr (.inr ⟨⟨nofun, nofun, nofun, ?_⟩, fun t x ht => ?_⟩)
  · exact contentHold_of_no_facets rfl rfl rfl rfl rfl rfl
  · cases ht with
    | item ht => cases ht
    | declared ht => cases ht
    | patterned _ _ ht => cases ht
    | extra _ _ ht => cases ht

/-- An extra member is judged by the schema that governs members beyond the properties, and there may be none
if there is no such schema. -/
theorem ReadsParts.admits_iff_of_extra (hA : ReadsParts A) {e : String × Json} (hundeclared : s.declares e.1 = false)
    (hunmatched : s.matchesKey e.1 = false) :
    s.Admits A e ↔ ∃ u, s.undeclaredSchema? = some u ∧ A u e.2 := by
  have hpatterns : ∀ p ∈ s.patternProperties, Pattern.accepts p.1 e.1 = true → A p.2 e.2 :=
    fun p hp haccepts => absurd haccepts (List.any_eq_false.mp hunmatched p hp)
  rw [admits_iff_of_undeclared hundeclared, and_iff_right hpatterns, hunmatched, isOpen,
    undeclaredSchema?]
  cases hs : s.additional with
  | unspecified => simp [hA.of_empty]
  | allowed yes => cases yes <;> simp [hA.of_empty]
  | schema u => simp

namespace Picks

variable {e : String × Json}

omit [Pattern.Engine] in
theorem patterns (h : s.Picks names extra t) : t.patternProperties = s.patternProperties := by
  rw [h.rest]
  rfl

/-- A member of a picked name is judged by the same property. -/
theorem admits_of_named (h : s.Picks names extra t) (hkeys : (Entries.keys s.properties).Nodup)
    (hnames : ∀ name ∈ names, s.declares name = true) (he : e.1 ∈ names) :
    t.Admits A e ↔ (s.requiringOnly names).Admits A e := by
  obtain ⟨c, hc⟩ := Option.isSome_iff_exists.mp (hnames e.1 he)
  have hpicked : Entries.get? t.properties e.1 = some c := by rw [h.property, if_pos he, hc]
  rw [admits_iff_of_declared h.keys hpicked, admits_iff_of_declared (s := s.requiringOnly names) hkeys hc]

/-- Where a schema may still have extra members, a member of another name is judged as before. -/
theorem admits_of_open (h : s.Picks names [] t) (ha : t.additional = s.additional)
    (he : e.1 ∉ names) (hundeclared : s.declares e.1 = false) :
    t.Admits A e ↔ (s.requiringOnly names).Admits A e := by
  have hnot : t.declares e.1 = false := by
    refine not_declares_of_get? ?_
    rw [h.property, if_neg he]
    rfl
  rw [admits_iff_of_undeclared hnot, admits_iff_of_undeclared (s := s.requiringOnly names) hundeclared,
    h.rest, ha]
  rfl

/-- Once a schema is closed, a member of another name must be an extra one or have a pattern, and is judged
as before. -/
theorem admits_of_closed (hA : ReadsParts A) (h : s.Picks names extra t) (ha : t.additional = .allowed false)
    (hextra : ∀ name ∈ extra, s.matchesKey name = false) (he : e.1 ∉ names)
    (hundeclared : s.declares e.1 = false) :
    t.Admits A e ↔ (s.requiringOnly names).Admits A e ∧ (e.1 ∈ extra ∨ s.matchesKey e.1 = true) := by
  have hmatches : t.matchesKey e.1 = s.matchesKey e.1 := by rw [matchesKey, h.patterns, matchesKey]
  have hproperty := h.property e.1
  rw [if_neg he] at hproperty
  by_cases hname : e.1 ∈ extra
  · -- a schema that governs an extra name is the same before and after, and so is that there is none
    rw [if_pos hname] at hproperty
    rw [and_iff_left (.inl hname),
      hA.admits_iff_of_extra (s := s.requiringOnly names) hundeclared (hextra e.1 hname)]
    show _ ↔ ∃ u, s.undeclaredSchema? = some u ∧ A u e.2
    rw [← hproperty]
    cases ht : Entries.get? t.properties e.1 with
    | some u => simp [admits_iff_of_declared h.keys ht]
    | none =>
      rw [hA.admits_iff_of_extra (not_declares_of_get? ht) (hmatches.trans (hextra e.1 hname)),
        undeclaredSchema?, ha]
  · rw [if_neg hname] at hproperty
    have hclosed : t.isOpen = false := by rw [isOpen, ha]
    rw [or_iff_right hname, admits_iff_of_undeclared (not_declares_of_get? hproperty), hmatches, hclosed,
      h.patterns, admits_iff_of_undeclared (s := s.requiringOnly names) hundeclared]
    show _ ↔ (_ ∧ (s.matchesKey e.1 = true ∨ _)) ∧ _
    cases s.matchesKey e.1 <;> simp [requiringOnly, setRequired]

/-- The picked schema judges an object as it did with the required names cut down, if it admits the same
members; or it takes some fewer, by a condition on these. -/
theorem reads_iff (hA : ReadsParts A) (h : s.Picks names extra t) (hobject : s.isObject = true)
    (hcombined : s.hasCombination = false) (hmembers : (Entries.keys members).Nodup) {P : Prop}
    (hadmits : (∀ e ∈ members, t.Admits A e) ↔
      (∀ e ∈ members, (s.requiringOnly names).Admits A e) ∧ P) :
    A t (.object members) ↔ A (s.requiringOnly names) (.object members) ∧ P := by
  have hkind : ∀ kind ∈ t.kind, kind = .object := by
    rw [h.rest]
    exact kind_eq_object (s := s) hobject
  have huncombined : t.hasCombination = false := by
    rw [h.rest]
    exact hcombined
  rw [hA.iff_admits hkind huncombined hmembers, hadmits,
    hA.iff_admits (s := s.requiringOnly names) (kind_eq_object hobject) hcombined hmembers, h.rest]
  simp only [and_assoc]
  rfl

/-- The picked schema passes the lenient check where the schema does. -/
theorem check (h : s.Picks names extra t) (ha : ∀ u, t.additional = .schema u → s.additional = .schema u)
    (hs : s.check false = .ok ()) : t.check false = .ok () := by
  have hchildren := ((check_eq_ok_iff s).mp hs).2
  have hproperties : ∀ e ∈ t.properties, e.2.check false = .ok () := by
    intro e he
    have hproperty := h.property e.1
    rw [Entries.get?_of_mem h.keys he] at hproperty
    split at hproperty
    · exact hchildren _ (.property (Entries.mem_of_get? hproperty.symm))
    · split at hproperty
      · rcases undeclaredSchema?_cases hproperty.symm with hadditional | hempty
        · exact hchildren _ (.additional hadditional)
        · rw [hempty]
          rfl
      · cases hproperty
  refine check_of_declarations hs ?_ hproperties (fun u hu => hchildren u (.additional (ha u hu))) nofun
  rw [h.rest]
  rfl

end Picks

theorem check_requiringOnly (names : List String) (h : s.check false = .ok ()) :
    (s.requiringOnly names).check false = .ok () := by
  have hchildren := ((check_eq_ok_iff s).mp h).2
  exact check_of_declarations h rfl (fun e he => hchildren e.2 (.property he))
    (fun u hu => hchildren u (.additional hu)) nofun

/-- A member under a name that is picked or not declared is judged as it was, if extra members are not
looked at otherwise. -/
theorem Picks.forall_admits_of_open (h : s.Picks names [] t) (ha : t.additional = s.additional)
    (hkeys : (Entries.keys s.properties).Nodup) (hnames : ∀ name ∈ names, s.declares name = true)
    (hspared : ∀ e ∈ members, s.declares e.1 = true → e.1 ∈ names) :
    (∀ e ∈ members, t.Admits A e) ↔ ∀ e ∈ members, (s.requiringOnly names).Admits A e := by
  refine forall₂_congr fun e he => ?_
  by_cases hname : e.1 ∈ names
  · exact h.admits_of_named hkeys hnames hname
  · exact h.admits_of_open ha hname (Bool.eq_false_iff.mpr (mt (hspared e he) hname))

theorem Picks.forall_admits_of_closed (hA : ReadsParts A) (h : s.Picks names extra t) (ha : t.additional = .allowed false)
    (hkeys : (Entries.keys s.properties).Nodup) (hnames : ∀ name ∈ names, s.declares name = true)
    (hextra : ∀ name ∈ extra, s.matchesKey name = false)
    (hspared : ∀ e ∈ members, s.declares e.1 = true → e.1 ∈ names) :
    (∀ e ∈ members, t.Admits A e) ↔ (∀ e ∈ members, (s.requiringOnly names).Admits A e) ∧
      ∀ e ∈ members, e.1 ∈ names ∨ e.1 ∈ extra ∨ s.matchesKey e.1 = true := by
  have hmember : ∀ e ∈ members, t.Admits A e ↔ (s.requiringOnly names).Admits A e ∧
      (e.1 ∈ names ∨ e.1 ∈ extra ∨ s.matchesKey e.1 = true) := by
    intro e he
    by_cases hname : e.1 ∈ names
    · rw [and_iff_left (.inl hname)]
      exact h.admits_of_named hkeys hnames hname
    · rw [or_iff_right hname]
      exact h.admits_of_closed hA ha hextra hname (Bool.eq_false_iff.mpr (mt (hspared e he) hname))
  rw [forall₂_congr hmember]
  simp only [imp_and, forall_and]

end Schema

namespace Validator

/-- Picking keeps the meaning of what is kept. An object schema from which declared names are picked accepts
an object that has no other declared member as the schema does with its required names cut down, if it stays
as open as it was; once it is closed, the members must besides be picked, named as extra ones or matched by
a pattern. Picking alone is picking without extra names, and leaving out is picking the rest. -/
theorem validate_picked [Pattern.Engine] {s : Schema} {o : Options} {v : Validator} (names : List String)
    (h : compile s (o.strictly false).plain = .ok v) (hobject : s.isObject = true)
    (hcombined : s.hasCombination = false) (hkeys : (Entries.keys s.properties).Nodup)
    (hnames : ∀ name ∈ names, s.declares name = true) :
    ∃ cut, compile (s.requiringOnly names) (o.strictly false).plain = .ok cut ∧
      (∃ t w, s.pickAdditionalProperties names none = .ok t ∧
        compile t (o.strictly false).plain = .ok w ∧
        ∀ members, (Entries.keys members).Nodup →
          (∀ e ∈ members, s.declares e.1 = true → e.1 ∈ names) →
          (w.Passes (.object members) ↔ cut.Passes (.object members))) ∧
      (∀ extra, (∀ name ∈ extra, s.declares name = false ∧ s.matchesKey name = false) →
        ∃ t w, s.pickAdditionalProperties names (some extra) = .ok t ∧
          compile t (o.strictly false).plain = .ok w ∧
          ∀ members, (Entries.keys members).Nodup →
            (∀ e ∈ members, s.declares e.1 = true → e.1 ∈ names) →
            (w.Passes (.object members) ↔ cut.Passes (.object members) ∧
              ∀ e ∈ members, e.1 ∈ names ∨ e.1 ∈ extra ∨ s.matchesKey e.1 = true)) ∧
      (∃ t, s.pickProperties names = .ok t ∧ s.pickAdditionalProperties names (some []) = .ok t) ∧
      ∀ dropped, ∃ t, s.omitProperties dropped = .ok t ∧
        s.pickProperties (s.propertyNames.filter (!dropped.contains ·)) = .ok t := by
  have hcheck := check_of_compile h
  have hcut := compile_of_check (Schema.check_requiringOnly names hcheck) (o := (o.strictly false).plain)
  refine ⟨_, hcut, ?_, fun extra hextra => ?_, ?_, fun dropped => ?_⟩
  · have hpicks := Schema.picks_keeping hkeys names
    have hcompiled := compile_of_check (hpicks.check (fun _ hu => hu) hcheck) (o := (o.strictly false).plain)
    refine ⟨_, _, Schema.pickAdditionalProperties_none hobject hcombined hnames, hcompiled,
      fun members hmembers hspared => ?_⟩
    have hadmits := hpicks.forall_admits_of_open (A := Schema.Clears (o.strictly false)) rfl hkeys hnames
      hspared
    rw [passes_plain_iff hcompiled, passes_plain_iff hcut,
      hpicks.reads_iff (Schema.readsParts_clears _) hobject hcombined hmembers
        (hadmits.trans (and_iff_left trivial).symm), and_iff_left trivial]
  · have hnew : ∀ name ∈ extra, name ∉ names := by
      intro name hname hmem
      exact absurd ((hextra name hname).1.symm.trans (hnames name hmem)) (by decide)
    obtain ⟨t, ht, hpicks, hclosed⟩ :=
      Schema.exists_pickAdditionalProperties hobject hcombined hkeys hnames hnew
    have hcompiled := compile_of_check (hpicks.check (by simp [hclosed]) hcheck)
      (o := (o.strictly false).plain)
    refine ⟨t, _, ht, hcompiled, fun members hmembers hspared => ?_⟩
    have hreads := Schema.readsParts_clears (o.strictly false)
    rw [passes_plain_iff hcompiled, passes_plain_iff hcut]
    exact hpicks.reads_iff hreads hobject hcombined hmembers (hpicks.forall_admits_of_closed hreads hclosed
      hkeys hnames (fun name hname => (hextra name hname).2) hspared)
  · exact ⟨_, Schema.pickProperties_eq_ok hobject hcombined hnames,
      (Schema.pickAdditionalProperties_nil hobject hcombined hnames).trans
        (Schema.pickProperties_eq_ok hobject hcombined hnames)⟩
  · have hrest : ∀ name ∈ s.propertyNames.filter (!dropped.contains ·), s.declares name = true :=
      fun name hname => (Entries.has_iff _ _).mpr (List.mem_filter.mp hname).1
    have hpicked := Schema.pickProperties_eq_ok hobject hcombined hrest
    exact ⟨_, (Schema.omitProperties_eq hobject hcombined dropped).trans hpicked, hpicked⟩

/-- A named thing with a price; notes whose key begins with an x are flags, and all else is counted. -/
def ware : Schema where
  kind := some .object
  properties := [("price", Schema.ofKind .number), ("name", Schema.ofKind .string)]
  required := some ["price", "name"]
  patternProperties := [("^x", Schema.ofKind .boolean)]
  additional := .schema (Schema.ofKind .integer)

/-- A thing of which only the name is picked needs no price. A count that is neither named nor has a pattern
passes as long as the schema is not closed. -/
theorem validate_picked_ware :
    ∃ t w t' w', ware.pickAdditionalProperties ["name"] none = .ok t ∧
      compile t ((Options.strictly {} false).plain) = .ok w ∧
      ware.pickAdditionalProperties ["name"] (some ["size"]) = .ok t' ∧
      compile t' ((Options.strictly {} false).plain) = .ok w' ∧
      w.Passes (.object [("name", .string "rope"), ("count", .ofNat 3)]) ∧
      w'.Passes (.object [("size", .ofNat 2), ("name", .string "rope"), ("xl", .bool true)]) ∧
      ¬ w'.Passes (.object [("name", .string "rope"), ("count", .ofNat 3)]) := by
  have hcompiled : compile ware (Options.strictly {} false).plain = .ok ⟨ware, _, rfl⟩ := rfl
  obtain ⟨cut, hcut, ⟨t, w, ht, hw, hopen⟩, hclosed, -⟩ :=
    validate_picked ["name"] hcompiled rfl rfl (by decide) (by decide)
  obtain ⟨t', w', ht', hw', hclosed⟩ := hclosed ["size"] (by decide)
  have hcut' : compile (ware.requiringOnly ["name"]) (Options.strictly {} false).plain =
    .ok ⟨ware.requiringOnly ["name"], _, rfl⟩ := rfl
  obtain rfl := Except.ok.inj (hcut'.symm.trans hcut)
  have hcounted : (Validator.mk (ware.requiringOnly ["name"]) (Options.strictly {} false).plain rfl).Passes
      (.object [("name", .string "rope"), ("count", .ofNat 3)]) := passes_iff.mpr ⟨by decide, by decide⟩
  have hsized : (Validator.mk (ware.requiringOnly ["name"]) (Options.strictly {} false).plain rfl).Passes
      (.object [("size", .ofNat 2), ("name", .string "rope"), ("xl", .bool true)]) :=
    passes_iff.mpr ⟨by decide, by decide⟩
  refine ⟨t, w, t', w', ht, hw, ht', hw', (hopen _ (by decide) (by decide)).mpr hcounted,
    (hclosed _ (by decide) (by decide)).mpr ⟨hsized, by decide⟩, fun hpasses => ?_⟩
  exact absurd ((hclosed _ (by decide) (by decide)).mp hpasses).2 (by decide)

end Validator

end DataSchema
