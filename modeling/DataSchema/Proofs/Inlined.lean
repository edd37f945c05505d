import DataSchema.Proofs.Dereference

/-!
What is left when references have been followed.

Where every reference is a text, what a document is inlined to has no reference and no definitions in it
(`Inlines.isInlined`), so that following its references leaves it as it is (`rebuild_of_isInlined`).
-/

namespace DataSchema.Registry

variable {r : Registry} {current d : Document} {text : String} {value x y : Json}
  {follow : String → Except RegistryError Json}

/-- Are all references among the members texts? -/
def refersByText (members : List (String × Json)) : Bool :=
  members.all fun e => e.1 != "$ref" || (Read.string? e.2).isSome

/-- Is there no reference and are there no definitions among the members? -/
def isInlined (members : List (String × Json)) : Bool :=
  members.all fun e => e.1 != "$ref" && !isDefinitions e.1

theorem isInlined_iff {members : List (String × Json)} :
    isInlined members = true ↔ ∀ e ∈ members, e.1 ≠ "$ref" ∧ isDefinitions e.1 = false := by
  simp [isInlined]

/-- Where references are texts, members without a reference have none of any kind. -/
theorem ne_ref_of_refersByText {members : List (String × Json)} (h : refersByText members = true)
    (hnone : referenceText? members = none) : ∀ e ∈ members, e.1 ≠ "$ref" := by
  intro e he hkey
  cases hget : Entries.get? members "$ref" with
  | none =>
    rw [Entries.get?_eq_none_iff] at hget
    exact hget (hkey ▸ List.mem_map_of_mem (f := Prod.fst) he)
  | some value =>
    have htext := List.all_eq_true.mp h _ (Entries.mem_of_get? hget)
    cases value with
    | string s => simp [referenceText?, hget] at hnone
    | _ => cases htext

/-! ### Texts all the way down -/

theorem everyObject_of_step? {p : List (String × Json) → Bool} {whole : Json} {token : String}
    (hwhole : whole.everyObject p = true) (h : Pointer.step? whole token = some value) :
    value.everyObject p = true := by
  cases whole with
  | object ms => exact (Json.everyObject_object.mp hwhole).2 _ (Entries.mem_of_get? h)
  | array xs =>
    obtain ⟨i, _, hi⟩ := Option.bind_eq_some_iff.mp h
    exact Json.everyObject_array.mp hwhole value (List.mem_of_getElem? hi)
  | _ => cases h

theorem everyObject_of_resolve? {p : List (String × Json) → Bool} : ∀ {tokens : List String}
    {whole : Json}, whole.everyObject p = true → Pointer.resolve? whole tokens = some value →
      value.everyObject p = true
  | [], _, hwhole, h => by
    cases h
    exact hwhole
  | _ :: _, _, hwhole, h => by
    obtain ⟨next, hstep, hrest⟩ := Option.bind_eq_some_iff.mp h
    exact everyObject_of_resolve? (everyObject_of_step? hwhole hstep) hrest

/-- What holds of every object of the documents holds of every object that a reference leads to. -/
theorem LeadsTo.everyObject {p : List (String × Json) → Bool} (h : r.LeadsTo current text d value)
    (hcurrent : current.value.everyObject p = true)
    (hregistry : ∀ name whole, r.get? name = some whole → whole.everyObject p = true) :
    d.value.everyObject p = true ∧ value.everyObject p = true := by
  have hd : d.value.everyObject p = true := by
    cases h with
    | here _ _ => exact hcurrent
    | named _ hget => exact hregistry _ _ hget
    | within _ _ _ hget _ => exact hregistry _ _ hget
  obtain ⟨pointer, hlookup⟩ := h.lookup
  obtain ⟨tokens, _, hresolve⟩ := Option.bind_eq_some_iff.mp hlookup
  exact ⟨hd, everyObject_of_resolve? hd hresolve⟩

/-! ### What is inlined is left alone -/

theorem mem_putAll {out others : List (String × Json)} {e : String × Json}
    (h : e ∈ Entries.putAll out others) : e ∈ out ∨ e ∈ others := by
  induction others generalizing out with
  | nil => exact .inl h
  | cons first rest ih =>
    rcases ih h with hput | hrest
    · rcases Entries.mem_put hput with rfl | hout
      · exact .inr List.mem_cons_self
      · exact .inl hout
    · exact .inr (List.mem_cons_of_mem _ hrest)

/-- Members that are rebuilt under keys that are kept. -/
theorem isInlined_mapValues {f : Json → Json} {members : List (String × Json)}
    (hkeys : ∀ e ∈ members, e.1 ≠ "$ref" ∧ isDefinitions e.1 = false)
    (hvalues : ∀ e ∈ members, (f e.2).everyObject isInlined = true) :
    ∀ e ∈ Entries.mapValues f members,
      (e.1 ≠ "$ref" ∧ isDefinitions e.1 = false) ∧ e.2.everyObject isInlined = true := by
  intro e he
  obtain ⟨e', he', rfl⟩ := List.mem_map.mp he
  exact ⟨hkeys e' he', hvalues e' he'⟩

theorem everyObject_isInlined_iff {members : List (String × Json)} :
    (Json.object members).everyObject isInlined = true ↔ ∀ e ∈ members,
      (e.1 ≠ "$ref" ∧ isDefinitions e.1 = false) ∧ e.2.everyObject isInlined = true := by
  rw [Json.everyObject_object, isInlined_iff, ← forall₂_and]

/-- What a value is inlined to has no reference and no definitions in it. -/
theorem Inlines.isInlined (h : r.Inlines d x y)
    (hregistry : ∀ name whole, r.get? name = some whole → whole.everyObject refersByText = true)
    (hd : d.value.everyObject refersByText = true) (hx : x.everyObject refersByText = true) :
    y.everyObject isInlined = true := by
  induction h with
  | scalar hscalar => exact Json.everyObject_scalar hscalar
  | array f _ ih =>
    rw [Json.everyObject_array] at hx ⊢
    exact List.forall_mem_map.mpr fun x hmem => ih x hmem hd (hx x hmem)
  | object f hnone _ ih =>
    rw [Json.everyObject_object] at hx
    refine everyObject_isInlined_iff.mpr (isInlined_mapValues (fun e he => ?_) fun e he =>
      ih e he hd (hx.2 e (mem_of_mem_keptMembers he)))
    exact ⟨ne_ref_of_refersByText hx.1 hnone e (mem_of_mem_keptMembers he),
      by simpa using (List.mem_filter.mp he).2⟩
  | reference _ hleads _ _ ih =>
    obtain ⟨hd', hvalue⟩ := hleads.everyObject hd hregistry
    exact ih hd' hvalue
  | overlaid f _ hleads _ _ ih ihf =>
    obtain ⟨hd', hvalue⟩ := hleads.everyObject hd hregistry
    rw [Json.everyObject_object] at hx
    refine everyObject_isInlined_iff.mpr fun e he => ?_
    rcases mem_putAll he with hout | hover
    · exact everyObject_isInlined_iff.mp (ih hd' hvalue) e hout
    · refine isInlined_mapValues (fun e he => ?_) (fun e he =>
        ihf e he hd (hx.2 e (mem_of_mem_siblings he))) e hover
      obtain ⟨hkept, hne⟩ := List.mem_filter.mp he
      exact ⟨by simpa using hne, by simpa using (List.mem_filter.mp hkept).2⟩

/-- Where there is nothing to follow and nothing to drop, a value is rebuilt as it is. -/
theorem rebuild_of_isInlined (h : x.everyObject isInlined = true) : rebuild follow x = .ok x := by
  have hnowhere : x.everyObject refersNowhere = true :=
    Json.everyObject_mono (fun ms hms => List.all_eq_true.mpr fun e he => by
      simpa using (isInlined_iff.mp hms e he).1) h
  have hnothing : x.everyObject definesNothing = true :=
    Json.everyObject_mono (fun ms hms => List.all_eq_true.mpr fun e he => by
      simpa using (isInlined_iff.mp hms e he).2) h
  rw [rebuild_of_refersNowhere follow hnowhere, withoutDefinitions_eq_self hnothing]

/-- Where every reference is a text, what dereferencing gives has no reference and no definitions in it,
and dereferencing it again changes nothing. -/
theorem dereference_isInlined {document out : Json}
    (hregistry : ∀ name whole, r.get? name = some whole → whole.everyObject refersByText = true)
    (hdocument : document.everyObject refersByText = true) (h : r.dereference document = .ok out) :
    out.everyObject isInlined = true ∧ r.dereference out = .ok out := by
  have hinlines : r.Inlines ⟨none, document⟩ document out :=
    inlines_of_rebuild (fun _ _ hout => inlines_of_follow (r := r) nofun hout) h
  have hout := hinlines.isInlined hregistry hdocument hdocument
  exact ⟨hout, rebuild_of_isInlined hout⟩

theorem dereference_owned : users.dereference owned = .ok ownedInlined ∧
    ownedInlined.everyObject isInlined = true ∧ users.dereference ownedInlined = .ok ownedInlined := by
  have hregistry : ∀ name whole, users.get? name = some whole →
      whole.everyObject refersByText = true := by
    intro name whole hget
    rcases List.mem_singleton.mp (Entries.mem_of_get? hget) with ⟨rfl, rfl⟩
    rfl
  have hout : users.dereference owned = .ok ownedInlined := rfl
  exact ⟨hout, dereference_isInlined hregistry rfl hout⟩

end DataSchema.Registry
