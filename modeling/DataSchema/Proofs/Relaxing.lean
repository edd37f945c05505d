import DataSchema.Pattern.Reader
import DataSchema.Proofs.Mapping
import DataSchema.Proofs.Nullability
import DataSchema.Proofs.Strictness
import Mathlib.Logic.Basic

/-!
Relaxed schemas.

A schema whose nested schemas are changed accepts what the changed schemas say of the parts and branches
(`Schema.accepts_mapChildren_iff`). A schema that is made optional loses demands on an object and nothing
else (`Schema.Accepts.toOptionals`), and to take null at every depth changes no combination, where to
accept more below can mean to accept less above; so whatever passes the schema passes both
(`Validator.loosens_relaxed`).
-/

namespace DataSchema

namespace Schema

variable [Pattern.Engine] {s t : Schema} {f : Schema → Schema} {value x : Json}

/-! ### Parts of a value -/

theorem part_mapChildren_iff : (s.mapChildren f).Part value t x ↔ ∃ u, s.Part value u x ∧ f u = t := by
  have hmem : ∀ {ps : List (String × Schema)} {key : String},
      (key, t) ∈ Entries.mapValues f ps ↔ ∃ u, (key, u) ∈ ps ∧ f u = t := by
    intro ps key
    constructor
    · intro h
      obtain ⟨e, he, hte⟩ := List.mem_map.mp h
      cases hte
      exact ⟨e.2, he, rfl⟩
    · rintro ⟨u, hu, rfl⟩
      exact List.mem_map_of_mem hu
  constructor
  · rintro (⟨ht, hx⟩ | ⟨ht, hx⟩ | ⟨hx, hd, ht, ha⟩ | ⟨hx, he, ht⟩)
    · obtain ⟨u, hu, rfl⟩ := Option.map_eq_some_iff.mp ht
      exact ⟨u, .item hu hx, rfl⟩
    · obtain ⟨u, hu, rfl⟩ := hmem.mp ht
      exact ⟨u, .declared hu hx, rfl⟩
    · obtain ⟨u, hu, rfl⟩ := hmem.mp ht
      rw [declares_mapChildren] at hd
      exact ⟨u, .patterned hx hd hu ha, rfl⟩
    · rw [isExtra_mapChildren] at he
      cases hs : s.additional with
      | schema u =>
        simp only [mapChildren, hs, Additional.map] at ht
        cases ht
        exact ⟨u, .extra hx he hs, rfl⟩
      | _ => simp [mapChildren, hs, Additional.map] at ht
  · rintro ⟨u, hu, rfl⟩
    cases hu with
    | item hu hx => exact .item (congrArg (Option.map f) hu) hx
    | declared hu hx => exact .declared (hmem.mpr ⟨u, hu, rfl⟩) hx
    | patterned hx hd hu ha =>
      exact .patterned hx (by rwa [declares_mapChildren]) (hmem.mpr ⟨u, hu, rfl⟩) ha
    | extra hx he hu =>
      exact .extra hx (by rwa [isExtra_mapChildren]) (congrArg (Additional.map f) hu)

/-- What holds of all parts and does not look at defaults holds as well once the schema is made optional. -/
theorem forall_part_toOptionals {p : Schema → Json → Prop} (hp : ∀ t x, p t.withoutDefault x ↔ p t x) :
    (∀ t x, s.toOptionals.Part value t x → p t x) ↔ ∀ t x, s.Part value t x → p t x := by
  constructor
  · intro h t x ht
    cases ht with
    | item ht hx => exact h t x (.item ht hx)
    | declared ht hx => exact (hp t x).mp (h _ x (.declared (List.mem_map_of_mem ht) hx))
    | patterned hx hd ht ha => exact h t x (.patterned hx (by rwa [declares_toOptionals]) ht ha)
    | extra hx he ht => exact h t x (.extra hx (by rwa [isExtra_toOptionals]) ht)
  · intro h t x ht
    cases ht with
    | item ht hx => exact h t x (.item ht hx)
    | declared ht hx =>
      obtain ⟨e, he, hte⟩ := List.mem_map.mp ht
      cases hte
      exact (hp e.2 x).mpr (h e.2 x (.declared he hx))
    | patterned hx hd ht ha =>
      rw [declares_toOptionals] at hd
      exact h t x (.patterned hx hd ht ha)
    | extra hx he ht =>
      rw [isExtra_toOptionals] at he
      exact h t x (.extra hx he ht)

/-! ### Demands on the value itself -/

theorem ownHold_mapChildren_iff : (s.mapChildren f).OwnHold value ↔ s.OwnHold value := by
  have hcontent : (s.mapChildren f).ContentHold value ↔ s.ContentHold value := by
    cases value with
    | object members =>
      refine ⟨fun h => ⟨h.required, h.counts, ?_⟩, fun h => ⟨h.required, h.counts, ?_⟩⟩
      · simpa only [isOpen_mapChildren, isExtra_mapChildren] using h.closed
      · simpa only [isOpen_mapChildren, isExtra_mapChildren] using h.closed
    | _ => rfl
  exact ⟨fun h => ⟨h.kind, h.const, h.enum, hcontent.mp h.content⟩,
    fun h => ⟨h.kind, h.const, h.enum, hcontent.mpr h.content⟩⟩

theorem OwnHold.toOptionals (h : s.OwnHold value) : s.toOptionals.OwnHold value := by
  refine ⟨h.kind, h.const, h.enum, ?_⟩
  cases value with
  | object members =>
    obtain ⟨-, hcounts, hclosed⟩ := h.content
    refine ⟨nofun, hcounts, fun hopen e he => ?_⟩
    rw [isExtra_toOptionals, hclosed hopen e he]
  | _ => exact h.content

/-! ### Accepting -/

/-- The default of a schema says nothing about a value that is there. -/
theorem run_withoutDefault (o : Options) (listed : Bool) (s : Schema) (value : Json) :
    s.withoutDefault.run o listed value = s.run o listed value := by
  rw [run_eq, run_eq]
  rfl

theorem accepts_withoutDefault : s.withoutDefault.Accepts value ↔ s.Accepts value := by
  rw [← (s.withoutDefault.judges_evaluate {} false value).passes_iff, evaluate, run_withoutDefault]
  exact (s.judges_evaluate {} false value).passes_iff

/-- What a schema says of a value, when it is told otherwise what its children accept. -/
def AcceptsBy (A : Schema → Json → Prop) (s : Schema) (value : Json) : Prop :=
  (value = .null ∧ s.nullable = true) ∨
    (s.OwnHold value ∧
      (∀ t x, s.Part value t x → A t x) ∧
      (∀ ts, s.allOf = some ts → ∀ t ∈ ts, A t value) ∧
      (∀ ts, s.anyOf = some ts → ts ≠ [] → ∃ t ∈ ts, A t value) ∧
      (∀ ts, s.oneOf = some ts → ts ≠ [] → ∃ before t after, ts = before ++ t :: after ∧
        A t value ∧ ∀ u ∈ before ++ after, ¬ A u value) ∧
      ∀ t, s.not = some t → ¬ A t value)

theorem accepts_iff_acceptsBy : s.Accepts value ↔ s.AcceptsBy Accepts value := by
  rw [Accepts, AcceptsBy]
  simp only [exists_prop]

/-- More is accepted where more is accepted below, unless it is below `oneOf`, where the same must be
accepted, or below `not`, where it must not be more. -/
theorem AcceptsBy.mono {A B : Schema → Json → Prop} (h : s.AcceptsBy A value)
    (hparts : ∀ t x, s.Part value t x → A t x → B t x)
    (hall : ∀ ts, s.allOf = some ts → ∀ t ∈ ts, A t value → B t value)
    (hany : ∀ ts, s.anyOf = some ts → (∃ t ∈ ts, A t value) → ∃ t ∈ ts, B t value)
    (hone : ∀ ts, s.oneOf = some ts → ∀ t ∈ ts, A t value ↔ B t value)
    (hnot : ∀ t, s.not = some t → B t value → A t value) : s.AcceptsBy B value := by
  refine Or.imp_right (fun ⟨hown, aparts, aall, aany, aone, anot⟩ => ⟨hown,
    fun t x ht => hparts t x ht (aparts t x ht), fun ts hs t ht => hall ts hs t ht (aall ts hs t ht),
    fun ts hs hne => hany ts hs (aany ts hs hne), fun ts hs hne => ?_,
    fun t hs ht => anot t hs (hnot t hs ht)⟩) h
  obtain ⟨before, t, after, rfl, ht, hothers⟩ := aone ts hs hne
  refine ⟨before, t, after, rfl, (hone _ hs t (by simp)).mp ht, fun u hu hB => hothers u hu ?_⟩
  exact (hone _ hs u (mem_of_others hu)).mpr hB

/-- What a schema with changed children accepts, told by the children before. -/
theorem accepts_mapChildren_iff :
    (s.mapChildren f).Accepts value ↔ s.AcceptsBy (fun t => (f t).Accepts) value := by
  have hparts : (∀ t x, (s.mapChildren f).Part value t x → t.Accepts x) ↔
      ∀ t x, s.Part value t x → (f t).Accepts x := by
    simp only [part_mapChildren_iff]
    constructor
    · exact fun h t x ht => h (f t) x ⟨t, ht, rfl⟩
    · rintro h _ x ⟨t, ht, rfl⟩
      exact h t x ht
  have hsome : ∀ ts : List Schema,
      (∃ t ∈ ts.map f, t.Accepts value) ↔ ∃ t ∈ ts, (f t).Accepts value := by
    simp only [List.mem_map, exists_exists_and_eq_and, implies_true]
  have hsplit : ∀ ts : List Schema, (∃ before t after, ts.map f = before ++ t :: after ∧
      t.Accepts value ∧ ∀ u ∈ before ++ after, ¬ u.Accepts value) ↔
        ∃ before t after, ts = before ++ t :: after ∧
          (f t).Accepts value ∧ ∀ u ∈ before ++ after, ¬ (f u).Accepts value := by
    intro ts
    constructor
    · rintro ⟨before, t, after, hts, ht, hothers⟩
      obtain ⟨first, second, rfl, rfl, hsecond⟩ := List.map_eq_append_iff.mp hts
      obtain ⟨u, last, rfl, rfl, rfl⟩ := List.map_eq_cons_iff.mp hsecond
      refine ⟨first, u, last, rfl, ht, ?_⟩
      rwa [← List.map_append, List.forall_mem_map] at hothers
    · rintro ⟨before, t, after, rfl, ht, hothers⟩
      refine ⟨before.map f, f t, after.map f, by simp, ht, ?_⟩
      rwa [← List.map_append, List.forall_mem_map]
  rw [accepts_iff_acceptsBy, AcceptsBy, AcceptsBy, ownHold_mapChildren_iff, hparts]
  simp only [mapChildren, Option.map_eq_some_iff, forall_exists_index, and_imp,
    forall_apply_eq_imp_iff₂, List.forall_mem_map, ne_eq, List.map_eq_nil_iff, hsome, hsplit]

theorem Accepts.toOptionals (h : s.Accepts value) : s.toOptionals.Accepts value := by
  rw [accepts_iff_acceptsBy] at h ⊢
  refine Or.imp_right (fun ⟨hown, hparts, hcombined⟩ => ⟨hown.toOptionals, ?_, hcombined⟩) h
  exact (forall_part_toOptionals fun _ _ => accepts_withoutDefault).mpr hparts

/-! ### Clearing -/

section Clearing

variable {o : Options}

theorem Clears.toOptionals (h : s.Clears o value) : s.toOptionals.Clears o value := by
  refine (succeeds_run_iff o s.toOptionals false value).mpr (Or.imp_right (fun h => ?_)
    ((succeeds_run_iff o s false value).mp h))
  obtain ⟨hown, hparts, hcombined⟩ := h
  refine ⟨hown.toOptionals, (forall_part_toOptionals fun t x => ?_).mpr hparts, hcombined⟩
  rw [Clears, run_withoutDefault, Clears]

theorem Clears.toNullable (h : s.Clears o value) : s.toNullable.Clears o value := by
  by_cases hnull : value = .null
  · subst hnull
    exact clears_null_toNullable.mpr fun _ => h
  · exact (succeeds_toNullable o.plain false hnull).mpr h

/-- Nothing below a combination changes, so the induction goes through parts of the value alone. -/
theorem clears_toDeepNullable (s : Schema) : ∀ value : Json,
    s.Clears o value → s.toDeepNullable.Clears o value := by
  induction s using Schema.induction with
  | step s ih =>
    intro value h
    rw [toDeepNullable_eq]
    split
    · exact h.toNullable
    · next hcombined =>
      rw [Bool.not_eq_true] at hcombined
      refine Clears.toNullable ?_
      rw [readsParts_clears o ((hasCombination_mapChildren _ s).trans hcombined),
        ownHold_mapChildren_iff]
      rw [readsParts_clears o hcombined] at h
      refine h.imp id fun ⟨hown, hparts⟩ => ⟨hown, fun t x ht => ?_⟩
      obtain ⟨u, hu, rfl⟩ := part_mapChildren_iff.mp ht
      exact ih u hu.child x (hparts u x hu)

end Clearing

/-! ### The check -/

section Check

variable {strict : Bool}

theorem check_withoutDefault (h : s.check strict = .ok ()) : s.withoutDefault.check strict = .ok () := by
  obtain ⟨⟨hfacets, hdefaults, hpatterns⟩, hchildren⟩ := (check_eq_ok_iff s).mp h
  exact (check_eq_ok_iff _).mpr
    ⟨⟨hfacets, hdefaults, hpatterns⟩, forall_child_withoutDefault.mpr hchildren⟩

/-- A schema that requires nothing has no undeclared name to require, and no default is left. -/
theorem check_toOptionals (h : s.check strict = .ok ()) : s.toOptionals.check strict = .ok () := by
  obtain ⟨hsound, hchildren⟩ := (check_eq_ok_iff s).mp h
  obtain ⟨hpatterns, horderly⟩ := (sound_iff strict).mp hsound
  refine (check_eq_ok_iff _).mpr ⟨(sound_iff strict).mpr ⟨⟨hpatterns.text, hpatterns.keys⟩, fun hs => ?_⟩,
    forall_child_toOptionals hchildren fun _ => check_withoutDefault⟩
  obtain ⟨hformat, hlength, hnumber, hitems, hproperties, -, -⟩ := horderly hs
  refine ⟨hformat, hlength, hnumber, hitems, hproperties, nofun, fun e he _ => ?_⟩
  obtain ⟨e', _, rfl⟩ := List.mem_map.mp he
  rfl

/-- Where the changed children pass and keep their defaults, the schema passes as before. -/
theorem check_mapChildren (h : s.check strict = .ok ())
    (hf : ∀ t, Child t s → (f t).check strict = .ok ()) (hdefault : ∀ t, (f t).default = t.default) :
    (s.mapChildren f).check strict = .ok () := by
  obtain ⟨hpatterns, horderly⟩ := (sound_iff strict).mp ((check_eq_ok_iff s).mp h).1
  refine (check_eq_ok_iff _).mpr ⟨(sound_iff strict).mpr ⟨⟨hpatterns.text, ?_⟩, fun hs => ?_⟩,
    forall_child_mapChildren.mpr hf⟩
  · exact List.forall_mem_map.mpr hpatterns.keys
  · obtain ⟨hformat, hlength, hnumber, hitems, hproperties, hrequired, hdefaults⟩ := horderly hs
    refine ⟨hformat, hlength, hnumber, hitems, hproperties, fun name hname => ?_,
      List.forall_mem_map.mpr fun e he hfree => ?_⟩
    · rw [declares_mapChildren, hrequired name hname]
    · rw [hdefault, hdefaults e he hfree]

theorem check_toDeepOptionals (s : Schema) :
    s.check strict = .ok () → s.toDeepOptionals.check strict = .ok () := by
  induction s using Schema.induction with
  | step s ih =>
    intro h
    have hchildren := ((check_eq_ok_iff s).mp h).2
    rw [toDeepOptionals_eq]
    refine check_toOptionals (check_mapChildren h (fun t ht => ih t ht (hchildren t ht)) fun t => ?_)
    rw [toDeepOptionals_eq]
    rfl

theorem check_toDeepNullable (s : Schema) :
    s.check strict = .ok () → s.toDeepNullable.check strict = .ok () := by
  have hdefault : ∀ t : Schema, t.toNullable.default = t.default := by
    intro t
    rw [toNullable]
    split <;> rfl
  induction s using Schema.induction with
  | step s ih =>
    intro h
    have hchildren := ((check_eq_ok_iff s).mp h).2
    rw [toDeepNullable_eq]
    split
    · exact check_toNullable h
    · refine check_toNullable (check_mapChildren h (fun t ht => ih t ht (hchildren t ht)) fun t => ?_)
      rw [toDeepNullable_eq, hdefault]
      split <;> rfl

end Check

end Schema

namespace Validator

/-- The second schema compiles wherever the first one does under a policy that rewrites nothing, and every
value that passes the first passes it too. -/
def Loosens [Pattern.Engine] (s t : Schema) : Prop :=
  ∀ o v, compile s (Options.plain o) = .ok v → ∃ w, compile t o.plain = .ok w ∧
    ∀ value, v.Passes value → w.Passes value

theorem loosens_of_clears [Pattern.Engine] {s t : Schema}
    (hcheck : ∀ strict, s.check strict = .ok () → t.check strict = .ok ())
    (hclears : ∀ o value, s.Clears o value → t.Clears o value) : Loosens s t := by
  intro o v h
  have hcompiled := compile_of_check (hcheck _ (check_of_compile h))
  refine ⟨_, hcompiled, fun value hpasses => (passes_plain_iff hcompiled value).mpr ?_⟩
  exact hclears o value ((passes_plain_iff h value).mp hpasses)

/-- What loosens a schema lets no value go that passes it. -/
theorem Loosens.clears [Pattern.Engine] {s t : Schema} (h : Loosens s t) (hs : s.check false = .ok ())
    (value : Json) (hclears : s.Clears {} value) : t.Clears {} value := by
  have hcompiled : compile s (Options.plain {}) = .ok ⟨s, Options.plain {}, hs⟩ := compile_of_check hs
  obtain ⟨w, hw, hkept⟩ := h {} _ hcompiled
  exact (passes_plain_iff hw value).mp (hkept value ((passes_plain_iff hcompiled value).mpr hclears))

/-- To require nothing, and to take null at every depth, is to take whatever the schema takes. To relax a
schema once more in the same way, by one of the four ways there are, changes nothing. -/
theorem loosens_relaxed [Pattern.Engine] (s : Schema) :
    Loosens s s.toOptionals ∧ Loosens s s.toDeepNullable ∧
      s.toOptionals.toOptionals = s.toOptionals ∧
      s.toDeepOptionals.toDeepOptionals = s.toDeepOptionals ∧
      s.toNullable.toNullable = s.toNullable ∧
      s.toDeepNullable.toDeepNullable = s.toDeepNullable :=
  ⟨loosens_of_clears (fun _ => Schema.check_toOptionals) fun _ _ h => h.toOptionals,
    loosens_of_clears (fun _ => Schema.check_toDeepNullable s) fun _ => s.clears_toDeepNullable,
    s.toOptionals_toOptionals, s.toDeepOptionals_toDeepOptionals, s.toNullable_toNullable,
    s.toDeepNullable_toDeepNullable⟩

/-- A parcel of weighed things, each of them an object itself. -/
def parcel : Schema where
  kind := some .object
  properties := [("things", Schema.arrayOf {
    kind := some .object
    properties := [("weight", Schema.ofKind .number)]
    required := some ["weight"] })]
  required := some ["things"]

/-- A parcel with one thing of weight one passes as it did, once its members are optional and once null is
taken at every depth. -/
theorem loosens_relaxed_parcel :
    compile parcel (Options.plain {}) = .ok ⟨parcel, Options.plain {}, rfl⟩ ∧
      (∃ w, compile parcel.toOptionals (Options.plain {}) = .ok w ∧
        w.Passes (.object [("things", .array [.object [("weight", .ofNat 1)]])])) ∧
      ∃ w, compile parcel.toDeepNullable (Options.plain {}) = .ok w ∧
        w.Passes (.object [("things", .array [.object [("weight", .ofNat 1)]])]) := by
  have hcompiled : compile parcel (Options.plain {}) = .ok ⟨parcel, Options.plain {}, rfl⟩ := rfl
  obtain ⟨hoptional, hnullable, -⟩ := loosens_relaxed parcel
  obtain ⟨w, hw, hpasses⟩ := hoptional {} _ hcompiled
  obtain ⟨w', hw', hpasses'⟩ := hnullable {} _ hcompiled
  have hone : (Validator.mk parcel (Options.plain {}) rfl).Passes
      (.object [("things", .array [.object [("weight", .ofNat 1)]])]) :=
    passes_iff.mpr ⟨by decide, by decide⟩
  exact ⟨hcompiled, ⟨w, hw, hpasses _ hone⟩, w', hw', hpasses' _ hone⟩

end Validator

end DataSchema
