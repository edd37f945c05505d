import DataSchema.Proofs.Marking
import DataSchema.Proofs.Strictness
import Mathlib.Data.List.Induction

/-!
Merging the properties of two schemas.

A merge takes the properties of the overlay one by one. What it has made of the base after some of them is
told by `Schema.Merges`, which the next one keeps (`Schema.Merges.step`) and so the whole run
(`Schema.merges_foldl`). The merged schema passes the check where both schemas do
(`Schema.Merges.check`).
-/

namespace DataSchema.Schema

variable {strategy : MergeStrategy} {base s merged : Schema} {ps : List (String × Schema)}
  {required : List String} {e : String × Schema} {name : String}

@[simp] theorem properties_markRequired (s : Schema) (name : String) :
    (s.markRequired name).properties = s.properties := by
  rw [markRequired]
  split <;> rfl

@[simp] theorem properties_unmarkRequired (s : Schema) (name : String) :
    (s.unmarkRequired name).properties = s.properties := by
  rw [unmarkRequired]
  split <;> rfl

theorem properties_mergeProperty (strategy : MergeStrategy) (required : List String) (s : Schema)
    (e : String × Schema) : (mergeProperty strategy required s e).properties =
      Entries.put s.properties e.1 ((Entries.get? s.properties e.1).elim e.2 (strategy.resolve · e.2)) := by
  obtain ⟨name, t⟩ := e
  rw [mergeProperty]
  cases hget : Entries.get? s.properties name with
  | none =>
    simp only [apply_ite properties, properties_markRequired, ite_self]
    rfl
  | some existing =>
    simp only [apply_ite properties, properties_markRequired, properties_unmarkRequired, ite_self]
    rfl

theorem mem_requiredNames_markRequired {n : String} :
    n ∈ (s.markRequired name).requiredNames ↔ n ∈ s.requiredNames ∨ n = name := by
  rw [markRequired]
  split
  · next h =>
    rw [isRequired, List.contains_iff_mem] at h
    exact ⟨.inl, fun hn => hn.elim id fun he => he ▸ h⟩
  · rw [requiredNames_setRequired, List.mem_append, List.mem_singleton]

theorem mem_requiredNames_unmarkRequired_iff {n : String} :
    n ∈ (s.unmarkRequired name).requiredNames ↔ n ∈ s.requiredNames ∧ n ≠ name := by
  refine ⟨mem_requiredNames_unmarkRequired, fun h => ?_⟩
  rw [unmarkRequired]
  split
  · simpa using h
  · exact h.1

theorem mem_requiredNames_mergeProperty (strategy : MergeStrategy) (required : List String) (s : Schema)
    (e : String × Schema) : name ∈ (mergeProperty strategy required s e).requiredNames ↔
      (name = e.1 ∧ name ∈ required) ∨ (name ∈ s.requiredNames ∧
        ¬ (strategy = .overwrite ∧ s.declares name = true ∧ name = e.1)) := by
  obtain ⟨key, t⟩ := e
  have hmark : ∀ next : Schema,
      name ∈ (if required.contains key then next.markRequired key else next).requiredNames ↔
        (name = key ∧ name ∈ required) ∨ name ∈ next.requiredNames := by
    intro next
    split
    · next h =>
      rw [mem_requiredNames_markRequired, or_comm]
      exact or_congr_left ⟨fun hn => ⟨hn, hn ▸ List.contains_iff_mem.mp h⟩, And.left⟩
    · next h =>
      refine (or_iff_right ?_).symm
      rintro ⟨rfl, hname⟩
      exact h (List.contains_iff_mem.mpr hname)
  rw [mergeProperty]
  dsimp only
  rw [hmark]
  cases hget : Entries.get? s.properties key with
  | none =>
    have hnew : ¬ (strategy = .overwrite ∧ s.declares name = true ∧ name = key) := by
      rintro ⟨-, hdeclares, rfl⟩
      rw [not_declares_of_get? hget] at hdeclares
      cases hdeclares
    rw [and_iff_left hnew]
    rfl
  | some existing =>
    have hdeclares := declares_of_get? hget
    dsimp only
    split
    · next h =>
      rw [mem_requiredNames_unmarkRequired_iff]
      refine or_congr_right (and_congr_right fun _ => not_congr ?_)
      exact ⟨fun hn => ⟨h.1, hn ▸ hdeclares, hn⟩, fun hn => hn.2.2⟩
    · next h =>
      show _ ∨ name ∈ s.requiredNames ↔ _
      by_cases hfirst : name = key ∧ name ∈ required
      · exact iff_of_true (.inl hfirst) (.inl hfirst)
      · have hkept : ¬ (strategy = .overwrite ∧ s.declares name = true ∧ name = key) := by
          rintro ⟨hstrategy, -, rfl⟩
          exact h ⟨hstrategy, fun hr => hfirst ⟨rfl, List.contains_iff_mem.mp hr⟩⟩
        rw [and_iff_left hkept]

theorem mergeProperty_rest (strategy : MergeStrategy) (required : List String) (s : Schema)
    (e : String × Schema) : mergeProperty strategy required s e =
      { s with properties := (mergeProperty strategy required s e).properties
               required := (mergeProperty strategy required s e).required } := by
  obtain ⟨key, t⟩ := e
  rw [mergeProperty]
  simp only [markRequired, unmarkRequired, setRequired]
  repeat' split
  all_goals rfl

/-- What a merge of some properties, of which the listed names are required, makes of a schema. Each name has
the property of the side that declares it, or what the strategy makes of both; only the strategy that
overwrites takes marks away. -/
structure Merges (strategy : MergeStrategy) (base : Schema) (ps : List (String × Schema))
    (required : List String) (merged : Schema) : Prop where
  rest : merged = { base with properties := merged.properties, required := merged.required }
  names : (Entries.keys merged.properties).Nodup
  property : ∀ name, Entries.get? merged.properties name =
    Option.merge strategy.resolve (Entries.get? base.properties name) (Entries.get? ps name)
  required : ∀ name, name ∈ merged.requiredNames ↔
    (name ∈ Entries.keys ps ∧ name ∈ required) ∨ (name ∈ base.requiredNames ∧
      ¬ (strategy = .overwrite ∧ base.declares name = true ∧ name ∈ Entries.keys ps))

namespace Merges

theorem declares (h : Merges strategy base ps required merged) (name : String) :
    merged.declares name = (base.declares name || Entries.has ps name) := by
  rw [Schema.declares, Entries.has, h.property, Schema.declares, Entries.has, Entries.has]
  cases Entries.get? base.properties name <;> cases Entries.get? ps name <;> rfl

/-- One more property, of a name that was not among the others, is merged. -/
theorem step (h : Merges strategy base ps required merged) (hnew : e.1 ∉ Entries.keys ps) :
    Merges strategy base (ps ++ [e]) required (mergeProperty strategy required merged e) where
  rest := by
    rw [mergeProperty_rest, h.rest]
  names := by
    rw [properties_mergeProperty]
    exact Entries.nodup_keys_put h.names _ _
  property name := by
    have hfresh : Entries.get? ps e.1 = none := (Entries.get?_eq_none_iff ps e.1).mpr hnew
    rw [properties_mergeProperty, Entries.get?_put, Entries.get?_append, h.property, h.property, hfresh,
      Option.merge_none_right, Entries.get?_cons]
    by_cases hname : e.1 = name
    · rw [if_pos hname, if_pos hname, ← hname, hfresh, Option.none_or]
      cases Entries.get? base.properties e.1 <;> rfl
    · rw [if_neg hname, if_neg hname, Entries.get?_nil, Option.or_none]
  required name := by
    rw [mem_requiredNames_mergeProperty, h.required, h.declares, Entries.keys_append, List.mem_append,
      show Entries.keys [e] = [e.1] from rfl, List.mem_singleton]
    by_cases hname : name = e.1
    · have hfresh : Entries.has ps e.1 = false :=
        Bool.eq_false_iff.mpr (mt (Entries.has_iff ps e.1).mp hnew)
      rw [hname, hfresh]
      simp [hnew]
    · simp [hname]

end Merges

theorem merges_foldl (strategy : MergeStrategy) (required : List String)
    (hbase : (Entries.keys base.properties).Nodup) : ∀ ps : List (String × Schema),
    (Entries.keys ps).Nodup →
      Merges strategy base ps required (ps.foldl (mergeProperty strategy required) base) := by
  intro ps hps
  -- from the end, where the last property is merged into what came of the others
  induction ps using List.reverseRecOn with
  | nil =>
    rw [List.foldl_nil]
    refine ⟨by cases base; rfl, hbase, fun name => ?_, fun name => ?_⟩
    · rw [Entries.get?_nil, Option.merge_none_right]
    · simp [Entries.keys]
  | append_singleton ps e ih =>
    rw [Entries.keys_append, List.nodup_append] at hps
    obtain ⟨hinit, -, hdisjoint⟩ := hps
    rw [List.foldl_append]
    exact (ih hinit).step fun hmem => hdisjoint _ hmem _ List.mem_cons_self rfl

/-- Simple object schemas can be merged by any strategy. -/
theorem merge_eq_ok {overlay : Schema} (strategy : MergeStrategy) (hbase : base.isSimpleObject = true)
    (hoverlay : overlay.isSimpleObject = true) : base.merge strategy overlay =
      .ok (overlay.properties.foldl (mergeProperty strategy overlay.requiredNames) base) := by
  rw [merge, ensureSimple, if_pos hbase, ensureSimple, if_pos hoverlay]
  rfl

theorem exists_merge {overlay : Schema} (strategy : MergeStrategy) (hbase : base.isSimpleObject = true)
    (hoverlay : overlay.isSimpleObject = true) (hnames : (Entries.keys base.properties).Nodup)
    (hnames' : (Entries.keys overlay.properties).Nodup) :
    ∃ merged, base.merge strategy overlay = .ok merged ∧
      Merges strategy base overlay.properties overlay.requiredNames merged :=
  ⟨_, merge_eq_ok strategy hbase hoverlay, merges_foldl strategy overlay.requiredNames hnames _ hnames'⟩

/-! ### The check -/

theorem check_either [Pattern.Engine] {strict : Bool} {t : Schema} (hs : s.check strict = .ok ())
    (ht : t.check strict = .ok ()) : (either s t).check strict = .ok () := by
  refine (check_eq_ok_iff _).mpr ⟨(sound_iff strict).mpr ⟨⟨nofun, nofun⟩, fun _ => ?_⟩, ?_⟩
  · exact ⟨nofun, nofun, nofun, nofun, nofun, nofun, nofun⟩
  · simp [forall_child_iff, either, hs, ht]

theorem check_resolve [Pattern.Engine] {strict : Bool} {t : Schema} (strategy : MergeStrategy)
    (hs : s.check strict = .ok ()) (ht : t.check strict = .ok ()) :
    (strategy.resolve s t).check strict = .ok () := by
  cases strategy with
  | overwrite => exact ht
  | _ =>
    rw [MergeStrategy.resolve]
    split
    · exact hs
    · exact check_either hs ht

theorem default_resolve {c u : Schema} (hc : strategy ≠ .overwrite → c.default = none)
    (hu : u.default = none) : (strategy.resolve c u).default = none := by
  cases strategy with
  | overwrite => exact hu
  | _ =>
    rw [MergeStrategy.resolve]
    split
    · exact hc nofun
    · rfl

namespace Merges

variable {overlay : Schema}

/-- A property of the merged schema is the base's, the overlay's, or made of both. -/
theorem property_cases (h : Merges strategy base ps required merged) (he : e ∈ merged.properties) :
    (Entries.get? base.properties e.1 = some e.2 ∧ Entries.get? ps e.1 = none) ∨
      (Entries.get? base.properties e.1 = none ∧ Entries.get? ps e.1 = some e.2) ∨
      ∃ c u, Entries.get? base.properties e.1 = some c ∧ Entries.get? ps e.1 = some u ∧
        strategy.resolve c u = e.2 := by
  rw [← Option.merge_eq_some_iff, ← h.property]
  exact Entries.get?_of_mem h.names he

/-- What is optional in the merged schema was optional where it comes from, so it has no default. -/
theorem default_eq_none (h : Merges strategy base overlay.properties overlay.requiredNames merged)
    (hbase : base.Orderly) (hoverlay : overlay.Orderly) (he : e ∈ merged.properties)
    (hfree : e.1 ∉ merged.requiredNames) : e.2.default = none := by
  rw [h.required, not_or] at hfree
  have hincoming : ∀ u, Entries.get? overlay.properties e.1 = some u → u.default = none := by
    intro u hu
    have hkeys := List.mem_map_of_mem (f := Prod.fst) (Entries.mem_of_get? hu)
    exact hoverlay.default_eq_none (Entries.mem_of_get? hu) fun hrequires => hfree.1 ⟨hkeys, hrequires⟩
  have hexisting : ∀ c, Entries.get? base.properties e.1 = some c →
      (strategy = .overwrite → Entries.get? overlay.properties e.1 = none) → c.default = none := by
    intro c hc honly
    refine hbase.default_eq_none (Entries.mem_of_get? hc) fun hrequires => hfree.2 ⟨hrequires, ?_⟩
    rintro ⟨hstrategy, -, hkeys⟩
    exact (Entries.get?_eq_none_iff _ _).mp (honly hstrategy) hkeys
  rcases h.property_cases he with ⟨hc, hnone⟩ | ⟨-, hu⟩ | ⟨c, u, hc, hu, hcu⟩
  · exact hexisting _ hc fun _ => hnone
  · exact hincoming _ hu
  · rw [← hcu]
    exact default_resolve (fun hother => hexisting c hc fun hstrategy => absurd hstrategy hother)
      (hincoming u hu)

/-- What is required in the merged schema is declared by the side that requires it. -/
theorem declares_of_mem_requiredNames
    (h : Merges strategy base overlay.properties overlay.requiredNames merged) (hbase : base.Orderly)
    (hname : name ∈ merged.requiredNames) : merged.declares name = true := by
  rw [h.declares, Bool.or_eq_true, Entries.has_iff]
  rcases (h.required name).mp hname with ⟨hkeys, -⟩ | ⟨hrequires, -⟩
  · exact .inr hkeys
  · exact .inl (hbase.required name hrequires)

/-- The merged schema passes the check where both schemas do. -/
theorem check [Pattern.Engine] (h : Merges strategy base overlay.properties overlay.requiredNames merged)
    {strict : Bool} (hbase : base.check strict = .ok ()) (hoverlay : overlay.check strict = .ok ()) :
    merged.check strict = .ok () := by
  obtain ⟨hsound, hchildren⟩ := (check_eq_ok_iff base).mp hbase
  obtain ⟨hsound', hchildren'⟩ := (check_eq_ok_iff overlay).mp hoverlay
  rw [sound_iff] at hsound hsound'
  have hproperties : ∀ e ∈ merged.properties, e.2.check strict = .ok () := by
    intro e he
    rcases h.property_cases he with ⟨hc, -⟩ | ⟨-, hu⟩ | ⟨c, u, hc, hu, hcu⟩
    · exact hchildren _ (.property (Entries.mem_of_get? hc))
    · exact hchildren' _ (.property (Entries.mem_of_get? hu))
    · rw [← hcu]
      exact check_resolve strategy (hchildren _ (.property (Entries.mem_of_get? hc)))
        (hchildren' _ (.property (Entries.mem_of_get? hu)))
  exact check_of_properties hbase h.rest hproperties fun hstrict =>
    ⟨fun name hname => h.declares_of_mem_requiredNames (hsound.2 hstrict) hname,
      fun e he => h.default_eq_none (hsound.2 hstrict) (hsound'.2 hstrict) he⟩

end Merges

end DataSchema.Schema
