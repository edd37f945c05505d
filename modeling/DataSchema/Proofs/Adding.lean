import DataSchema.Proofs.Merging
import DataSchema.Proofs.Reshaping

/-!
Adding properties in bulk and one after another.

Adding in bulk looks at all names before it adds any property; adding one after another looks at each name
when its turn comes, in a schema that has the earlier ones by then. Either takes the first entry in the same
way and goes on with the others (`addInTurn_cons`, `addProperties_cons`), so the two agree on every list of
entries: in the schema that they make, in when they fail, and in the name that they report
(`addProperties_eq_addInTurn`).
-/

namespace DataSchema

namespace Entries

variable {α : Type}

/-- A new key goes last. -/
theorem put_of_new {entries : List (String × α)} {key : String} (h : has entries key = false)
    (value : α) : put entries key value = entries ++ [(key, value)] := by
  induction entries with
  | nil => rfl
  | cons e rest ih =>
    have hne : e.1 ≠ key := by
      rintro rfl
      rw [has, get?_cons, if_pos rfl] at h
      cases h
    rw [has, get?_cons, if_neg hne] at h
    rw [put, if_neg hne, ih h, List.cons_append]

end Entries

namespace Schema

variable {s t : Schema} {entry : String × PropertySpec} {entries : List (String × PropertySpec)}
  {names seen others : List String}

/-- Adds one property as its entry says. -/
def addEntry (s : Schema) : String × PropertySpec → Except ReshapeError Schema
  | (name, .required child) => s.addProperty name child true false
  | (name, .optional child) => s.addProperty name child false false
  | (name, .union child alternate) => do
    let child ← ofAnyOf [child, alternate]
    s.addProperty name child false false

/-- Adds properties one after another, up to the first that cannot be added. -/
def addInTurn (s : Schema) (entries : List (String × PropertySpec)) : Except ReshapeError Schema :=
  entries.foldlM addEntry s

/-- The names that the entries mark, which are not marked yet. -/
def newlyRequired (s : Schema) (entries : List (String × PropertySpec)) : List String :=
  (entries.filter fun e => e.2.isRequired && !s.isRequired e.1).map Prod.fst

/-! ### One entry -/

/-- The schema with the property of an entry, which is marked if it is to be required. -/
def added (s : Schema) (entry : String × PropertySpec) : Schema :=
  (if entry.2.isRequired then s.markRequired entry.1 else s).putProperty entry.1 entry.2.schema

theorem properties_added (s : Schema) (entry : String × PropertySpec) :
    (s.added entry).properties = Entries.put s.properties entry.1 entry.2.schema := by
  rw [added, putProperty]
  split
  · rw [properties_markRequired]
  · rfl

theorem declares_added (s : Schema) (entry : String × PropertySpec) (name : String) :
    (s.added entry).declares name = true ↔ name = entry.1 ∨ s.declares name = true := by
  rw [declares, Entries.has, properties_added, Entries.get?_put]
  by_cases h : entry.1 = name
  · simp [h]
  · simp [h, Ne.symm h, declares, Entries.has]

theorem requiredNames_added (s : Schema) (entry : String × PropertySpec) :
    (s.added entry).requiredNames = s.requiredNames ++ s.newlyRequired [entry] := by
  have hput : (s.added entry).requiredNames =
      (if entry.2.isRequired then s.markRequired entry.1 else s).requiredNames := rfl
  rw [hput, newlyRequired, markRequired]
  cases hspec : entry.2.isRequired <;> cases hmarked : s.isRequired entry.1 <;> simp [hspec, hmarked]

theorem isRequired_added_of_ne {name : String} (h : name ≠ entry.1) :
    (s.added entry).isRequired name = s.isRequired name := by
  have hput : (s.added entry).isRequired name =
      (if entry.2.isRequired then s.markRequired entry.1 else s).isRequired name := rfl
  rw [hput, Bool.eq_iff_iff, isRequired, isRequired, List.contains_iff_mem, List.contains_iff_mem]
  split
  · rw [mem_requiredNames_markRequired, or_iff_left h]
  · rfl

theorem isObject_added (h : s.isObject = true) (entry : String × PropertySpec) :
    (s.added entry).isObject = true := by
  have hkind : (s.added entry).kind = s.kind := by
    rw [added, markRequired]
    split <;> [split; skip] <;> rfl
  have hsome : (s.added entry).properties.isEmpty = false := by
    rw [properties_added]
    cases s.properties with
    | nil => rfl
    | cons first rest =>
      rw [Entries.put]
      split <;> rfl
  rw [isObject, hkind]
  cases hk : s.kind with
  | none => simp [hsome]
  | some kind => simpa [isObject, hk] using h

theorem addEntry_eq (h : s.isObject = true) (entry : String × PropertySpec) :
    s.addEntry entry =
      if s.declares entry.1 then .error (.duplicateProperty entry.1) else .ok (s.added entry) := by
  obtain ⟨name, spec⟩ := entry
  have hadd : ∀ child required, s.addProperty name child required false =
      if s.declares name then .error (.duplicateProperty name)
      else .ok (if required then (s.putProperty name child).markRequired name
        else s.putProperty name child) := by
    intro child required
    rw [addProperty, ensureObject, h]
    rfl
  cases spec with
  | required child =>
    rw [addEntry, hadd, added]
    simp only [PropertySpec.isRequired, if_true, putProperty_markRequired, PropertySpec.schema]
  | optional child => exact hadd child false
  | union child alternate => exact hadd (either child alternate) false

/-! ### The names -/

/-- Only what is declared and what is seen counts, and not which of the two it is. -/
theorem firstDuplicate?_congr (h : ∀ name, (s.declares name = true ∨ name ∈ seen) ↔
    (t.declares name = true ∨ name ∈ others)) :
    s.firstDuplicate? seen names = t.firstDuplicate? others names := by
  induction names generalizing seen others with
  | nil => rfl
  | cons name rest ih =>
    simp only [firstDuplicate?, Bool.or_eq_true, List.contains_iff_mem, h name]
    split
    · rfl
    · refine ih fun other => ?_
      rw [List.mem_cons, List.mem_cons, or_left_comm, h other, or_left_comm]

/-! ### All entries -/

theorem addInTurn_cons (h : s.isObject = true) (entry : String × PropertySpec)
    (entries : List (String × PropertySpec)) :
    s.addInTurn (entry :: entries) =
      if s.declares entry.1 then .error (.duplicateProperty entry.1)
      else (s.added entry).addInTurn entries := by
  rw [addInTurn, List.foldlM_cons, addEntry_eq h]
  split <;> rfl

theorem addProperties_of_object (h : s.isObject = true) (entries : List (String × PropertySpec)) :
    s.addProperties entries =
      match s.firstDuplicate? [] (entries.map Prod.fst) with
      | some name => .error (.duplicateProperty name)
      | none => .ok (entries.foldl added s) := by
  rw [addProperties, ensureObject, if_pos h]
  rfl

theorem addProperties_cons (h : s.isObject = true) (entry : String × PropertySpec)
    (entries : List (String × PropertySpec)) :
    s.addProperties (entry :: entries) =
      if s.declares entry.1 then .error (.duplicateProperty entry.1)
      else (s.added entry).addProperties entries := by
  have hrest : s.firstDuplicate? [entry.1] (entries.map Prod.fst) =
      (s.added entry).firstDuplicate? [] (entries.map Prod.fst) :=
    firstDuplicate?_congr fun name => by
      simp [declares_added, or_comm]
  rw [addProperties_of_object h, addProperties_of_object (isObject_added h entry), List.map_cons,
    firstDuplicate?]
  cases s.declares entry.1 with
  | true => rfl
  | false =>
    simp only [List.contains_nil, Bool.or_false, Bool.false_eq_true, if_false, hrest,
      List.foldl_cons]

theorem addProperties_nil (h : s.isObject = true) : s.addProperties [] = .ok s :=
  addProperties_of_object h []

theorem addProperties_eq (h : s.isObject = true) : s.addProperties entries = s.addInTurn entries := by
  induction entries generalizing s with
  | nil => exact addProperties_nil h
  | cons entry rest ih => rw [addProperties_cons h, addInTurn_cons h, ih (isObject_added h entry)]

theorem exists_addProperties_eq_ok_iff (h : s.isObject = true) :
    (∃ t, s.addProperties entries = .ok t) ↔
      (Entries.keys entries).Nodup ∧ ∀ name ∈ Entries.keys entries, s.declares name = false := by
  induction entries generalizing s with
  | nil => exact iff_of_true ⟨s, addProperties_nil h⟩ ⟨List.nodup_nil, nofun⟩
  | cons entry rest ih =>
    rw [addProperties_cons h, Entries.keys_cons, List.nodup_cons, List.forall_mem_cons]
    cases hd : s.declares entry.1 with
    | true => simp
    | false =>
      simp only [Bool.false_eq_true, if_false, ih (isObject_added h entry), true_and]
      simp only [← Bool.not_eq_true, declares_added, not_or]
      constructor
      · rintro ⟨hnodup, hnames⟩
        exact ⟨⟨fun hmem => (hnames _ hmem).1 rfl, hnodup⟩, fun name hname => (hnames name hname).2⟩
      · rintro ⟨⟨hmem, hnodup⟩, hnames⟩
        exact ⟨hnodup, fun name hname => ⟨fun he => hmem (he ▸ hname), hnames name hname⟩⟩

/-- The properties go last in their order, and so do the names that are marked. -/
theorem of_addProperties_eq_ok (hs : s.isObject = true) (h : s.addProperties entries = .ok t) :
    t.properties = s.properties ++ Entries.mapValues PropertySpec.schema entries ∧
      t.requiredNames = s.requiredNames ++ s.newlyRequired entries := by
  induction entries generalizing s with
  | nil =>
    obtain rfl := Except.ok.inj ((addProperties_nil hs).symm.trans h)
    exact ⟨(List.append_nil _).symm, (List.append_nil _).symm⟩
  | cons entry rest ih =>
    obtain ⟨hnodup, hnames⟩ := (exists_addProperties_eq_ok_iff hs).mp ⟨t, h⟩
    rw [Entries.keys_cons] at hnodup hnames
    have hnew := hnames entry.1 List.mem_cons_self
    rw [addProperties_cons hs, hnew] at h
    obtain ⟨hproperties, hrequired⟩ := ih (isObject_added hs entry) h
    constructor
    · rw [hproperties, properties_added, Entries.put_of_new hnew, List.append_assoc]
      rfl
    · -- an entry has no part in what later ones mark, since its name does not come again
      have hrest : (s.added entry).newlyRequired rest = s.newlyRequired rest := by
        rw [newlyRequired, newlyRequired]
        refine congrArg _ (List.filter_congr fun e he => ?_)
        have hne : e.1 ≠ entry.1 := fun heq =>
          (List.nodup_cons.mp hnodup).1 (heq ▸ List.mem_map_of_mem (f := Prod.fst) he)
        rw [isRequired_added_of_ne hne]
      rw [hrequired, requiredNames_added, hrest, List.append_assoc]
      simp only [newlyRequired, ← List.map_append, ← List.filter_append, List.singleton_append]

/-- What is reported is the first name that is declared already or stands before; the entries in front of
it can be added. -/
theorem of_addProperties_eq_error (hs : s.isObject = true) {error : ReshapeError}
    (h : s.addProperties entries = .error error) :
    ∃ before entry after, entries = before ++ entry :: after ∧
      error = .duplicateProperty entry.1 ∧
      (s.declares entry.1 = true ∨ entry.1 ∈ Entries.keys before) ∧
      ∃ t, s.addProperties before = .ok t := by
  induction entries generalizing s with
  | nil => cases (addProperties_nil hs).symm.trans h
  | cons first rest ih =>
    rw [addProperties_cons hs] at h
    cases hd : s.declares first.1 with
    | true =>
      rw [hd, if_pos rfl] at h
      exact ⟨[], first, rest, rfl, (Except.error.inj h).symm, .inl hd, s, addProperties_nil hs⟩
    | false =>
      rw [hd] at h
      obtain ⟨before, entry, after, rfl, rfl, hduplicate, t, ht⟩ := ih (isObject_added hs first) h
      refine ⟨first :: before, entry, after, rfl, rfl, ?_, t, ?_⟩
      · rw [declares_added] at hduplicate
        rw [Entries.keys_cons, List.mem_cons]
        exact hduplicate.elim (fun h => h.elim (.inr ∘ .inl) .inl) (.inr ∘ .inr)
      · rw [addProperties_cons hs, hd]
        exact ht

/-- To add properties in bulk is to add them one after another: the schemas that come out are the same, and
so are the errors. It succeeds exactly if no name is declared already and none comes twice; then the
properties stand last in their order, with the names that they newly mark as required. Otherwise the first
name that is declared already or stands before is reported. -/
theorem addProperties_eq_addInTurn (s : Schema) (entries : List (String × PropertySpec))
    (h : s.isObject = true) :
    s.addProperties entries = s.addInTurn entries ∧
      ((∃ t, s.addProperties entries = .ok t) ↔
        (Entries.keys entries).Nodup ∧ ∀ name ∈ Entries.keys entries, s.declares name = false) ∧
      (∀ t, s.addProperties entries = .ok t →
        t.properties = s.properties ++ Entries.mapValues PropertySpec.schema entries ∧
          t.requiredNames = s.requiredNames ++ s.newlyRequired entries) ∧
      ∀ error, s.addProperties entries = .error error →
        ∃ before entry after, entries = before ++ entry :: after ∧
          error = .duplicateProperty entry.1 ∧
          (s.declares entry.1 = true ∨ entry.1 ∈ Entries.keys before) ∧
          ∃ t, s.addProperties before = .ok t :=
  ⟨addProperties_eq h, exists_addProperties_eq_ok_iff h, fun _ => of_addProperties_eq_ok h,
    fun _ => of_addProperties_eq_error h⟩

/-- Objects that must have an identifier, which no property declares. -/
def labelled : Schema := { emptyObject with required := some ["id"] }

/-- Three properties, of which the first two are to be required. -/
def labels : List (String × PropertySpec) :=
  [("tag", .required (ofKind .string)), ("id", .required (ofKind .integer)),
    ("rank", .union (ofKind .integer) (ofKind .null))]

/-- The identifier keeps its place among the required names; the first name that comes again is
reported. -/
theorem addProperties_labelled : labelled.isObject = true ∧
    (∃ t, labelled.addInTurn labels = .ok t ∧ t.propertyNames = ["tag", "id", "rank"] ∧
      t.requiredNames = ["id", "tag"]) ∧
    labelled.addInTurn (labels ++ [("rank", .optional (ofKind .null)), ("tag", .optional {})]) =
      .error (.duplicateProperty "rank") := by
  refine ⟨rfl, ?_, ?_⟩
  · obtain ⟨hsame, _, hmade, _⟩ := addProperties_eq_addInTurn labelled labels rfl
    obtain ⟨hproperties, hrequired⟩ := hmade _ rfl
    refine ⟨_, hsame.symm, ?_, hrequired⟩
    rw [propertyNames, hproperties]
    rfl
  · exact (addProperties_eq_addInTurn labelled _ rfl).1.symm

end Schema

end DataSchema
