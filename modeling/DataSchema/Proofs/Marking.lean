import DataSchema.Proofs.Reading
import DataSchema.Schema.Merge

/-!
The required names of schemas that are reshaped.

A schema is marked well if it requires declared properties only, each once, and keeps no empty list of
required names; it is well marked if it and every schema below it are. Marking and unmarking a name, and
putting, dropping or changing a property that is not required, keep a schema well marked, and all
operations on the properties of a schema are made of such steps.
-/

namespace DataSchema

namespace Entries

variable {α : Type}

theorem has_put (entries : List (String × α)) (key : String) (value : α) {k : String}
    (h : k = key ∨ has entries k = true) : has (put entries key value) k = true := by
  rw [has, get?_put]
  split
  · rfl
  · next hne => exact h.resolve_left fun hk => hne hk.symm

theorem keys_modify (entries : List (String × α)) (key : String) (f : α → α) :
    keys (modify entries key f) = keys entries := by
  induction entries with
  | nil => rfl
  | cons e rest ih =>
    rw [modify]
    split
    · rfl
    · rw [keys_cons, keys_cons, ih]

theorem forall_mem_modify {p : α → Prop} {entries : List (String × α)} {key : String} {f : α → α}
    (h : ∀ e ∈ entries, p e.2) (hf : ∀ x, p x → p (f x)) : ∀ e ∈ modify entries key f, p e.2 := by
  induction entries with
  | nil => exact h
  | cons first rest ih =>
    rw [List.forall_mem_cons] at h
    rw [modify]
    split
    · exact List.forall_mem_cons.mpr ⟨hf _ h.1, h.2⟩
    · exact List.forall_mem_cons.mpr ⟨h.1, ih h.2⟩

theorem mem_of_mem_erase {entries : List (String × α)} {key : String} {e : String × α}
    (h : e ∈ erase entries key) : e ∈ entries := by
  induction entries with
  | nil => exact h
  | cons first rest ih =>
    rw [erase] at h
    split at h
    · exact List.mem_cons_of_mem first h
    · exact List.mem_cons.mpr ((List.mem_cons.mp h).imp_right ih)

end Entries

namespace Schema

variable {s t u : Schema} {name : String}

/-- The schema requires declared properties only, each once, and no list of required names is empty. -/
structure Marked (s : Schema) : Prop where
  ne_nil : s.required ≠ some []
  nodup : s.requiredNames.Nodup
  declared : ∀ name ∈ s.requiredNames, s.declares name = true

/-- The schema and every schema below it are marked well. -/
def WellMarked (s : Schema) : Prop := ∀ t, Within t s → t.Marked

theorem wellMarked_iff (s : Schema) :
    s.WellMarked ↔ s.Marked ∧ ∀ t, Child t s → t.WellMarked := by
  constructor
  · exact fun h => ⟨h s (.refl s), fun t ht u hu => h u (.step ht hu)⟩
  · rintro ⟨hown, hchildren⟩ t ht
    cases ht with
    | refl => exact hown
    | step hchild hwithin => exact hchildren _ hchild t hwithin

theorem WellMarked.marked (h : s.WellMarked) : s.Marked := ((wellMarked_iff s).mp h).1

theorem WellMarked.child (h : s.WellMarked) (ht : Child t s) : t.WellMarked :=
  ((wellMarked_iff s).mp h).2 t ht

/-- A schema that requires nothing is well marked if the schemas below it are. -/
theorem wellMarked_of_required_none (h : s.required = none) (hs : ∀ t ∈ s.children, t.WellMarked) :
    s.WellMarked := by
  have hnames : s.requiredNames = [] := by rw [requiredNames, h, Option.getD_none]
  refine (wellMarked_iff s).mpr ⟨⟨?_, ?_, ?_⟩, fun t ht => hs t (mem_children_of_child ht)⟩
  · simp [h]
  · simp [hnames]
  · simp [hnames]

/-- Facets have no part in it. -/
theorem WellMarked.of_nested (hs : s.WellMarked) (h : t.nested = s.nested)
    (hrequired : t.required = s.required) : t.WellMarked := by
  simp only [nested, Prod.mk.injEq] at h
  obtain ⟨hp, hpp, had, hit, hone, hall, hany, hno⟩ := h
  obtain ⟨⟨hne, hnodup, hdeclared⟩, hchildren⟩ := (wellMarked_iff s).mp hs
  rw [forall_child_iff, ← hp, ← hpp, ← had, ← hit, ← hone, ← hall, ← hany, ← hno,
    ← forall_child_iff] at hchildren
  simp only [requiredNames, declares, ← hrequired, ← hp] at hne hnodup hdeclared
  exact (wellMarked_iff t).mpr ⟨⟨hne, hnodup, hdeclared⟩, hchildren⟩

theorem WellMarked.withNullable (hs : s.WellMarked) (b : Bool) :
    { s with nullable := b }.WellMarked := hs.of_nested rfl rfl

theorem WellMarked.withoutDefault (hs : s.WellMarked) : s.withoutDefault.WellMarked :=
  hs.of_nested rfl rfl

/-! ### Marks -/

theorem WellMarked.setRequired (hs : s.WellMarked) {names : List String} (hnodup : names.Nodup)
    (hnames : ∀ name ∈ names, s.declares name = true) : (s.setRequired names).WellMarked := by
  refine (wellMarked_iff _).mpr ⟨?_, fun t ht => ?_⟩
  · cases names with
    | nil => exact ⟨nofun, List.nodup_nil, nofun⟩
    | cons first rest => exact ⟨nofun, hnodup, hnames⟩
  · have hchildren := forall_child_iff.mp ((wellMarked_iff s).mp hs).2
    exact (forall_child_iff (s := s.setRequired names)).mpr hchildren t ht

theorem WellMarked.markRequired (hs : s.WellMarked) (hname : s.declares name = true) :
    (s.markRequired name).WellMarked := by
  rw [Schema.markRequired]
  split
  · exact hs
  · next hnot =>
    rw [isRequired, List.contains_iff_mem] at hnot
    have ⟨_, hnodup, hdeclared⟩ := hs.marked
    refine hs.setRequired ?_ ?_
    · rw [List.nodup_append]
      refine ⟨hnodup, by simp, ?_⟩
      rintro n hn m hm rfl
      exact hnot (List.mem_singleton.mp hm ▸ hn)
    · intro n hn
      rcases List.mem_append.mp hn with hold | hnew
      · exact hdeclared n hold
      · exact List.mem_singleton.mp hnew ▸ hname

theorem WellMarked.filterRequired (hs : s.WellMarked) (p : String → Bool) :
    (s.setRequired (s.requiredNames.filter p)).WellMarked :=
  hs.setRequired (hs.marked.nodup.filter p) fun name hname =>
    hs.marked.declared name (List.mem_filter.mp hname).1

theorem WellMarked.unmarkRequired (hs : s.WellMarked) (name : String) :
    (s.unmarkRequired name).WellMarked := by
  rw [Schema.unmarkRequired]
  split
  · exact hs.filterRequired (· != name)
  · exact hs

@[simp] theorem requiredNames_setRequired (s : Schema) (names : List String) :
    (s.setRequired names).requiredNames = names := by
  cases names with
  | nil => rfl
  | cons first rest => rfl

/-- What is required after a name is unmarked was required before, and is another name. -/
theorem mem_requiredNames_unmarkRequired {n : String}
    (h : n ∈ (s.unmarkRequired name).requiredNames) : n ∈ s.requiredNames ∧ n ≠ name := by
  rw [Schema.unmarkRequired] at h
  split at h
  · rw [requiredNames_setRequired, List.mem_filter] at h
    exact ⟨h.1, by simpa using h.2⟩
  · next hnot =>
    rw [isRequired, List.contains_iff_mem] at hnot
    exact ⟨h, fun he => hnot (he ▸ h)⟩

/-! ### Properties -/

/-- Other properties keep the schema well marked if the required names are among them. -/
theorem WellMarked.withProperties (hs : s.WellMarked) {ps : List (String × Schema)}
    (hps : ∀ e ∈ ps, e.2.WellMarked) (hnames : ∀ name ∈ s.requiredNames, Entries.has ps name = true) :
    { s with properties := ps }.WellMarked := by
  obtain ⟨⟨hne, hnodup, _⟩, hchildren⟩ := (wellMarked_iff s).mp hs
  obtain ⟨_, hrest⟩ := forall_child_iff.mp hchildren
  exact (wellMarked_iff _).mpr ⟨⟨hne, hnodup, hnames⟩, forall_child_iff.mpr ⟨hps, hrest⟩⟩

theorem WellMarked.properties (hs : s.WellMarked) : ∀ e ∈ s.properties, e.2.WellMarked :=
  fun _ he => hs.child (.property he)

theorem WellMarked.putProperty (hs : s.WellMarked) (name : String) (hu : u.WellMarked) :
    (s.putProperty name u).WellMarked := by
  refine hs.withProperties (fun e he => ?_) fun n hn => ?_
  · rcases Entries.mem_put he with rfl | hold
    · exact hu
    · exact hs.properties e hold
  · exact Entries.has_put _ _ _ (.inr (hs.marked.declared n hn))

@[simp] theorem declares_putProperty (s : Schema) (name : String) (child : Schema) :
    (s.putProperty name child).declares name = true :=
  Entries.has_put _ _ _ (.inl rfl)

theorem WellMarked.modifyProperty (hs : s.WellMarked) (name : String) {f : Schema → Schema}
    (hf : ∀ c : Schema, c.WellMarked → (f c).WellMarked) : (s.modifyProperty name f).WellMarked := by
  refine hs.withProperties (Entries.forall_mem_modify hs.properties hf) fun n hn => ?_
  rw [Entries.has_iff, Entries.keys_modify, ← Entries.has_iff]
  exact hs.marked.declared n hn

/-- Marks and properties are changed in either order. -/
theorem unmarkRequired_withProperties (s : Schema) (ps : List (String × Schema)) (name : String) :
    { s with properties := ps }.unmarkRequired name =
      { s.unmarkRequired name with properties := ps } := by
  have hsame : { s with properties := ps }.isRequired name = s.isRequired name := rfl
  rw [Schema.unmarkRequired, Schema.unmarkRequired, hsame]
  cases s.isRequired name <;> rfl

theorem putProperty_markRequired (s : Schema) (name other : String) (t : Schema) :
    (s.markRequired name).putProperty other t = (s.putProperty other t).markRequired name := by
  have hsame : (s.putProperty other t).isRequired name = s.isRequired name := rfl
  rw [Schema.markRequired, Schema.markRequired, hsame]
  cases s.isRequired name <;> rfl

/-! ### Schemas made of others -/

theorem wellMarked_arrayOf (hs : s.WellMarked) : (arrayOf s).WellMarked :=
  wellMarked_of_required_none rfl (by simpa [children, arrayOf] using hs)

theorem wellMarked_not (hs : s.WellMarked) : (ofNot s).WellMarked :=
  wellMarked_of_required_none rfl (by simpa [children, ofNot] using hs)

theorem WellMarked.either (hs : s.WellMarked) (ht : t.WellMarked) : (either s t).WellMarked :=
  wellMarked_of_required_none rfl (by simpa [children, Schema.either] using ⟨hs, ht⟩)

end Schema

end DataSchema
