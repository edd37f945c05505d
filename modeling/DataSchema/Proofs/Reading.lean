import DataSchema.Proofs.Rewriting
import DataSchema.Schema.Document

/-!
Schemas that are read from documents.

No name is declared twice in a schema that is read from a well-keyed document, and no default in it has a
key twice (`Schema.wellKeyed_ofJson?`).
-/

namespace DataSchema.Schema

variable {s t : Schema} {value : Json}

theorem wellKeyed_iff (s : Schema) : s.WellKeyed ↔
    ((Entries.keys s.properties).Nodup ∧ ∀ d ∈ s.default, d.WellKeyed) ∧
      ∀ t, Child t s → t.WellKeyed := by
  constructor
  · exact fun h => ⟨⟨h.names, h.default⟩, fun t ht => h.child ht⟩
  · rintro ⟨hown, hchildren⟩ t ht
    cases ht with
    | refl => exact hown
    | step hchild hwithin => exact hchildren _ hchild t hwithin

/-- The fields that nest schemas. -/
def nested (s : Schema) :=
  (s.properties, s.patternProperties, s.additional, s.items, s.oneOf, s.allOf, s.anyOf, s.not)

theorem WellKeyed.of_nested (hs : s.WellKeyed) (h : t.nested = s.nested)
    (hdefault : ∀ d ∈ t.default, d.WellKeyed) : t.WellKeyed := by
  simp only [nested, Prod.mk.injEq] at h
  obtain ⟨hp, hpp, had, hit, hone, hall, hany, hno⟩ := h
  obtain ⟨⟨hnames, _⟩, hchildren⟩ := (wellKeyed_iff s).mp hs
  rw [forall_child_iff, ← hp, ← hpp, ← had, ← hit, ← hone, ← hall, ← hany, ← hno,
    ← forall_child_iff] at hchildren
  exact (wellKeyed_iff t).mpr ⟨⟨hp ▸ hnames, hdefault⟩, hchildren⟩

/-- A facet changes no nested schema, and the default only if it is the facet. -/
theorem readFacet?_eq_some {key : String} (h : readFacet? s key value = some t) :
    t.nested = s.nested ∧ (t.default = s.default ∨ t.default = some value) := by
  rw [readFacet?.eq_def] at h
  split at h
  all_goals
    simp only [Option.bind_eq_bind, Option.pure_def, Option.bind_eq_some_iff, Option.some.injEq] at h
  all_goals first
    | obtain ⟨_, _, rfl⟩ := h
      exact ⟨rfl, .inl rfl⟩
    | subst h
      first
        | exact ⟨rfl, .inl rfl⟩
        | exact ⟨rfl, .inr rfl⟩

/-- Whatever schema the value is a document of, it is well-keyed. -/
def Reads (value : Json) : Prop := ∀ s, ofJson? value = some s → s.WellKeyed

theorem entries?_eq_some : ∀ {ms : List (String × Json)} {ps : List (String × Schema)},
    entries? ms = some ps → (∀ e ∈ ms, Reads e.2) →
      Entries.keys ps = Entries.keys ms ∧ ∀ e ∈ ps, e.2.WellKeyed
  | [], ps, h, _ => by
    cases h
    exact ⟨rfl, nofun⟩
  | (key, value) :: rest, ps, h, hreads => by
    rw [List.forall_mem_cons] at hreads
    rw [entries?] at h
    split at h
    · next s ss hs hss =>
      obtain ⟨hkeys, hrest⟩ := entries?_eq_some hss hreads.2
      cases h
      rw [Entries.keys_cons, Entries.keys_cons, hkeys]
      exact ⟨rfl, List.forall_mem_cons.mpr ⟨hreads.1 s hs, hrest⟩⟩
    · cases h

theorem list?_eq_some : ∀ {xs : List Json} {ts : List Schema},
    list? xs = some ts → (∀ x ∈ xs, Reads x) → ∀ t ∈ ts, t.WellKeyed
  | [], ts, h, _ => by
    cases h
    exact nofun
  | value :: rest, ts, h, hreads => by
    rw [List.forall_mem_cons] at hreads
    rw [list?] at h
    split at h
    · next s ss hs hss =>
      cases h
      exact List.forall_mem_cons.mpr ⟨hreads.1 s hs, list?_eq_some hss hreads.2⟩
    · cases h

theorem additional?_eq_some {a : Additional Schema} (h : additional? value = some a)
    (hreads : Reads value) : ∀ t, a = .schema t → t.WellKeyed := by
  rintro t rfl
  cases value with
  | object members =>
    rw [additional?, Option.map_eq_some_iff] at h
    obtain ⟨s, hs, hst⟩ := h
    cases hst
    exact hreads t (by rw [ofJson?, hs])
  | _ => cases h

theorem optional?_eq_some {option : Option Schema} (h : optional? value = some option)
    (hreads : Reads value) : ∀ t ∈ option, t.WellKeyed := by
  rintro t rfl
  cases value with
  | object members =>
    rw [optional?, Option.map_eq_some_iff] at h
    obtain ⟨s, hs, hst⟩ := h
    cases hst
    exact hreads t (by rw [ofJson?, hs])
  | _ => cases h

/-- The value and its parts are documents of well-keyed schemas, if of any. -/
structure ReadsThroughout (value : Json) : Prop where
  keyed : value.WellKeyed
  whole : Reads value
  items : ∀ xs, value = .array xs → ∀ x ∈ xs, Reads x
  members : ∀ ms, value = .object ms → ∀ e ∈ ms, Reads e.2

theorem map?_eq_some {ps : List (String × Schema)} (h : map? value = some ps)
    (hvalue : ReadsThroughout value) :
    (Entries.keys ps).Nodup ∧ ∀ e ∈ ps, e.2.WellKeyed := by
  cases value with
  | object members =>
    obtain ⟨hkeys, hps⟩ := entries?_eq_some h (hvalue.members members rfl)
    exact ⟨hkeys ▸ hvalue.keyed.keys, hps⟩
  | _ => cases h

theorem branches?_eq_some {branches : Option (List Schema)} (h : branches? value = some branches)
    (hvalue : ReadsThroughout value) : ∀ ts ∈ branches, ∀ t ∈ ts, t.WellKeyed := by
  rintro ts rfl
  cases value with
  | array items =>
    rw [branches?, Option.map_eq_some_iff] at h
    obtain ⟨us, hus, hts⟩ := h
    cases hts
    exact list?_eq_some hus (hvalue.items items rfl)
  | _ => cases h

/-- The schema with what a member of the document says. -/
def readMember? (s : Schema) (key : String) (value : Json) : Option Schema :=
  match key with
  | "properties" => (map? value).map fun ps => { s with properties := ps }
  | "patternProperties" => (map? value).map fun ps => { s with patternProperties := ps }
  | "additionalProperties" => (additional? value).map fun a => { s with additional := a }
  | "items" => (optional? value).map fun o => { s with items := o }
  | "oneOf" => (branches? value).map fun bs => { s with oneOf := bs }
  | "allOf" => (branches? value).map fun bs => { s with allOf := bs }
  | "anyOf" => (branches? value).map fun bs => { s with anyOf := bs }
  | "not" => (optional? value).map fun o => { s with not := o }
  | key => readFacet? s key value

theorem ofMembers?_cons (key : String) (value : Json) (rest : List (String × Json)) :
    ofMembers? ((key, value) :: rest) = (ofMembers? rest).bind (readMember? · key value) := by
  rw [ofMembers?.eq_def]
  dsimp only
  cases ofMembers? rest <;> rfl

/-- Each keyword for nested schemas says what one field is, and leaves the others as they are. -/
theorem wellKeyed_readMember? {key : String} (hs : s.WellKeyed) (hvalue : ReadsThroughout value)
    (h : s.readMember? key value = some t) : t.WellKeyed := by
  obtain ⟨hown, hchildren⟩ := (wellKeyed_iff s).mp hs
  obtain ⟨hp, hpp, had, hit, hone, hall, hany, hnot⟩ := forall_child_iff.mp hchildren
  rw [wellKeyed_iff, forall_child_iff]
  rw [readMember?.eq_def] at h
  split at h
  · obtain ⟨ps, hps, rfl⟩ := Option.map_eq_some_iff.mp h
    obtain ⟨hnames, hps⟩ := map?_eq_some hps hvalue
    exact ⟨⟨hnames, hown.2⟩, hps, hpp, had, hit, hone, hall, hany, hnot⟩
  · obtain ⟨ps, hps, rfl⟩ := Option.map_eq_some_iff.mp h
    exact ⟨hown, hp, (map?_eq_some hps hvalue).2, had, hit, hone, hall, hany, hnot⟩
  · obtain ⟨a, ha, rfl⟩ := Option.map_eq_some_iff.mp h
    exact ⟨hown, hp, hpp, additional?_eq_some ha hvalue.whole, hit, hone, hall, hany, hnot⟩
  · obtain ⟨it, hi, rfl⟩ := Option.map_eq_some_iff.mp h
    exact ⟨hown, hp, hpp, had, optional?_eq_some hi hvalue.whole, hone, hall, hany, hnot⟩
  · obtain ⟨ts, hts, rfl⟩ := Option.map_eq_some_iff.mp h
    exact ⟨hown, hp, hpp, had, hit, branches?_eq_some hts hvalue, hall, hany, hnot⟩
  · obtain ⟨ts, hts, rfl⟩ := Option.map_eq_some_iff.mp h
    exact ⟨hown, hp, hpp, had, hit, hone, branches?_eq_some hts hvalue, hany, hnot⟩
  · obtain ⟨ts, hts, rfl⟩ := Option.map_eq_some_iff.mp h
    exact ⟨hown, hp, hpp, had, hit, hone, hall, branches?_eq_some hts hvalue, hnot⟩
  · obtain ⟨no, hno, rfl⟩ := Option.map_eq_some_iff.mp h
    exact ⟨hown, hp, hpp, had, hit, hone, hall, hany, optional?_eq_some hno hvalue.whole⟩
  · obtain ⟨hnested, hdefault⟩ := readFacet?_eq_some h
    rw [← forall_child_iff, ← wellKeyed_iff]
    refine hs.of_nested hnested fun d hd => ?_
    rcases hdefault with hsame | hnew
    · exact hs.default d (hsame ▸ hd)
    · obtain rfl : value = d := Option.some.inj (hnew.symm.trans hd)
      exact hvalue.keyed

theorem wellKeyed_ofMembers? : ∀ {ms : List (String × Json)} {s : Schema},
    (∀ e ∈ ms, ReadsThroughout e.2) → ofMembers? ms = some s → s.WellKeyed
  | [], s, _, h => by
    cases h
    rw [wellKeyed_iff]
    exact ⟨⟨List.nodup_nil, nofun⟩, fun t ht => by cases ht <;> contradiction⟩
  | (key, value) :: rest, s, hms, h => by
    obtain ⟨hvalue, hrest⟩ := List.forall_mem_cons.mp hms
    rw [ofMembers?_cons, Option.bind_eq_some_iff] at h
    obtain ⟨r, hr, hs⟩ := h
    exact wellKeyed_readMember? (wellKeyed_ofMembers? hrest hr) hvalue hs

/-- A schema that is read from a well-keyed document is well-keyed. -/
theorem wellKeyed_ofJson? (hvalue : value.WellKeyed) (h : ofJson? value = some s) : s.WellKeyed := by
  have hthroughout : value.WellKeyed → ReadsThroughout value := by
    clear h hvalue
    induction value using Json.induction with
    | scalar x hx =>
      intro hkeyed
      refine ⟨hkeyed, fun s hs => ?_, ?_, ?_⟩
      · cases x <;> first | cases hs | cases hx
      · rintro xs rfl
        cases hx
      · rintro ms rfl
        cases hx
    | array xs ih =>
      intro hkeyed
      refine ⟨hkeyed, nofun, ?_, nofun⟩
      rintro _ ⟨rfl⟩ x hx
      exact (ih x hx (hkeyed.items x hx)).whole
    | object ms ih =>
      intro hkeyed
      have hms : ∀ e ∈ ms, ReadsThroughout e.2 := fun e he => ih e he (hkeyed.members e he)
      refine ⟨hkeyed, fun s hs => wellKeyed_ofMembers? hms hs, nofun, ?_⟩
      rintro _ ⟨rfl⟩ e he
      exact (hms e he).whole
  exact (hthroughout hvalue).whole s h

end DataSchema.Schema
