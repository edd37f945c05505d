import DataSchema.Proofs.Nesting
import DataSchema.Proofs.Values
import DataSchema.Validation.Evaluate

/-!
What validation rewrites.

A value is rewritten in two places: a scalar of the wrong kind is converted into another scalar
(`Schema.admit?_eq_some`), and the members of an object are prepared before its keys are looked at. What
removal and defaults do to an object is told key by key (`Schema.get?_prepare`).
-/

namespace DataSchema

/-! ### Conversion -/

namespace Json

theorem toNumber?_eq_some {value converted : Json} (h : value.toNumber? = some converted) :
    value.isScalar = true ∧ converted.hasKind .number = true := by
  cases value with
  | string s =>
    refine ⟨rfl, ?_⟩
    rw [toNumber?, numberOfText?] at h
    split at h
    · cases h; rfl
    · obtain ⟨x, _, rfl⟩ := Option.map_eq_some_iff.mp h
      rfl
  | bool b => cases h; exact ⟨rfl, rfl⟩
  | null => cases h; exact ⟨rfl, rfl⟩
  | number n => cases h
  | array xs => cases h
  | object ms => cases h

theorem isScalar_of_number {value : Json} (h : value.hasKind .number = true) :
    value.isScalar = true := by
  cases value with
  | number n => rfl
  | _ => cases h

/-- Conversion makes a scalar of the kind out of a scalar. -/
theorem coerce?_eq_some {kind : Kind} {value converted : Json}
    (h : value.coerce? kind = some converted) :
    value.isScalar = true ∧ converted.isScalar = true ∧ converted.hasKind kind = true := by
  rw [coerce?.eq_def] at h
  split at h
  case h_4 =>
    obtain ⟨hvalue, hnumber⟩ := toNumber?_eq_some h
    exact ⟨hvalue, isScalar_of_number hnumber, hnumber⟩
  case h_5 =>
    obtain ⟨hconverted, hinteger⟩ := Option.filter_eq_some_iff.mp h
    obtain ⟨hvalue, hnumber⟩ := toNumber?_eq_some hconverted
    exact ⟨hvalue, isScalar_of_number hnumber, hinteger⟩
  -- every other rule gives one value for one form of scalar
  all_goals repeat' split at h
  all_goals cases h
  all_goals exact ⟨rfl, rfl, rfl⟩

end Json

namespace Schema

/-- A value that is let in is of the kind, and is the value itself or a scalar made out of a scalar. -/
theorem admit?_eq_some {o : Options} {s : Schema} {value admitted : Json}
    (h : s.admit? o value = some admitted) :
    (∀ kind ∈ s.kind, admitted.hasKind kind = true) ∧
      (admitted = value ∨
        o.coerceTypes = true ∧ value.isScalar = true ∧ admitted.isScalar = true) := by
  rw [admit?.eq_def] at h
  split at h
  · next hkind =>
    cases h
    simp [hkind]
  · next kind hkind =>
    simp only [hkind, Option.mem_def, Option.some.injEq, forall_eq']
    split at h
    · next hhas =>
      cases h
      exact ⟨hhas, .inl rfl⟩
    · split at h
      · next hcoerce =>
        obtain ⟨hvalue, hadmitted, hhas⟩ := Json.coerce?_eq_some h
        exact ⟨hhas, .inr ⟨hcoerce, hvalue, hadmitted⟩⟩
      · cases h

/-! ### Removal -/

theorem get?_dropExtra [Pattern.Engine] (s : Schema) (members : List (String × Json)) (key : String) :
    Entries.get? (s.dropExtra members) key =
      if s.isOpen || !s.isExtra key then Entries.get? members key else none := by
  rw [dropExtra]
  cases s.isOpen with
  | true => rfl
  | false => exact Entries.get?_filter (fun key => !s.isExtra key) members key

theorem mem_of_mem_dropExtra [Pattern.Engine] {s : Schema} {members : List (String × Json)}
    {e : String × Json} (h : e ∈ s.dropExtra members) : e ∈ members := by
  rw [dropExtra] at h
  split at h
  · exact h
  · exact (List.mem_filter.mp h).1

theorem nodup_keys_dropExtra [Pattern.Engine] (s : Schema) {members : List (String × Json)}
    (h : (Entries.keys members).Nodup) : (Entries.keys (s.dropExtra members)).Nodup := by
  rw [dropExtra]
  split
  · exact h
  · exact h.sublist (List.filter_sublist.map _)

/-! ### Defaults -/

/-- Where every required member is there, nothing is filled in. -/
theorem fillDefaults_of_required {s : Schema} {members : List (String × Json)}
    (h : ∀ name ∈ s.requiredNames, Entries.has members name = true) :
    s.fillDefaults members = members := by
  have hthere : ∀ name, (s.isRequired name && !Entries.has members name) = false := by
    intro name
    cases hr : s.isRequired name with
    | false => rfl
    | true => rw [h name (List.contains_iff_mem.mp hr), Bool.not_true, Bool.and_false]
  refine List.foldlRecOn (motive := fun filled => filled = members) s.properties _ rfl ?_
  rintro filled hfilled ⟨name, property⟩ _
  rw [hfilled]
  dsimp only
  cases property.default with
  | none => rfl
  | some value => exact if_neg (ne_true_of_eq_false (hthere name))

/-- Filling in defaults puts declared names that are not there at the end, one by one. -/
@[elab_as_elim]
theorem fillDefaults_rec {s : Schema} {motive : List (String × Json) → Prop}
    {members : List (String × Json)} (start : motive members)
    (step : ∀ filled name t d, (name, t) ∈ s.properties → t.default = some d →
      Entries.get? filled name = none → motive filled → motive (filled ++ [(name, d)])) :
    motive (s.fillDefaults members) := by
  refine List.foldlRecOn s.properties _ start ?_
  rintro filled hfilled ⟨name, t⟩ ht
  dsimp only
  split
  · next d hd =>
    split
    · next hmissing =>
      rw [Bool.and_eq_true, Bool.not_eq_true', Entries.has, Option.isSome_eq_false_iff,
        Option.isNone_iff_eq_none] at hmissing
      exact step filled name t d ht hd hmissing.2 hfilled
    · exact hfilled
  · exact hfilled

theorem nodup_keys_fillDefaults (s : Schema) {members : List (String × Json)}
    (h : (Entries.keys members).Nodup) : (Entries.keys (s.fillDefaults members)).Nodup := by
  refine fillDefaults_rec h fun filled name t d _ _ hmissing hfilled => ?_
  rw [Entries.get?_eq_none_iff] at hmissing
  rw [Entries.keys_append, List.nodup_append]
  refine ⟨hfilled, by simp [Entries.keys], ?_⟩
  rintro key hkey _ hname rfl
  obtain rfl : key = name := List.mem_singleton.mp hname
  exact hmissing hkey

theorem get?_fillDefaults_of_some (s : Schema) {members : List (String × Json)} {key : String}
    {x : Json} (h : Entries.get? members key = some x) :
    Entries.get? (s.fillDefaults members) key = some x := by
  refine fillDefaults_rec h fun filled name t d _ _ _ hfilled => ?_
  rw [Entries.get?_append, hfilled, Option.some_or]

theorem get?_fillDefaults_of_undeclared {s : Schema} (members : List (String × Json)) {key : String}
    (h : s.declares key = false) :
    Entries.get? (s.fillDefaults members) key = Entries.get? members key := by
  refine fillDefaults_rec rfl fun filled name t d ht _ _ hfilled => ?_
  have hne : name ≠ key := by
    rintro rfl
    exact absurd ((declares_of_mem ht).symm.trans h) (by decide)
  rw [Entries.get?_append, hfilled, Entries.get?_cons, if_neg hne, Entries.get?_nil, Option.or_none]

/-- What stands in for a missing member under the key. -/
def filler? (s : Schema) (key : String) : Option Json :=
  if s.isRequired key then (Entries.get? s.properties key).bind (·.default) else none

theorem get?_fillDefaults {s : Schema} (hnames : (Entries.keys s.properties).Nodup)
    (members : List (String × Json)) (key : String) :
    Entries.get? (s.fillDefaults members) key = (Entries.get? members key).or (s.filler? key) := by
  rw [fillDefaults, filler?]
  generalize s.properties = ps at hnames ⊢
  induction ps generalizing members with
  | nil => cases s.isRequired key <;> simp
  | cons e rest ih =>
    obtain ⟨name, t⟩ := e
    rw [Entries.keys_cons, List.nodup_cons] at hnames
    rw [List.foldl_cons, ih _ hnames.2, Entries.get?_cons]
    dsimp only
    by_cases hname : name = key
    · -- the name does not come again, so this is the step that decides about the key
      subst hname
      rw [(Entries.get?_eq_none_iff rest name).mpr hnames.1, if_pos rfl]
      cases hd : t.default with
      | none => simp [hd]
      | some d =>
        cases hr : s.isRequired name <;> cases hg : Entries.get? members name <;>
          simp [hd, hg, Entries.has, Entries.get?_append, Entries.get?_cons]
    · rw [if_neg hname]
      congr 1
      cases hd : t.default with
      | none => rfl
      | some d =>
        dsimp only
        split
        · simp [Entries.get?_append, Entries.get?_cons, hname]
        · rfl

/-! ### Objects as they are before their keys are looked at -/

theorem nodup_keys_prepare [Pattern.Engine] (o : Options) (s : Schema) {members : List (String × Json)}
    (h : (Entries.keys members).Nodup) : (Entries.keys (s.prepare o members)).Nodup := by
  rw [prepare]
  split <;> split
  · exact nodup_keys_fillDefaults s (nodup_keys_dropExtra s h)
  · exact nodup_keys_fillDefaults s h
  · exact nodup_keys_dropExtra s h
  · exact h

/-- Under each key there is what was there, unless it is removed, and else the default. -/
theorem get?_prepare [Pattern.Engine] (o : Options) {s : Schema}
    (hnames : (Entries.keys s.properties).Nodup) (members : List (String × Json)) (key : String) :
    Entries.get? (s.prepare o members) key =
      (if !o.removeAdditional || s.isOpen || !s.isExtra key then Entries.get? members key
        else none).or (if o.useDefaults then s.filler? key else none) := by
  have hkept : Entries.get? (if o.removeAdditional then s.dropExtra members else members) key =
      if !o.removeAdditional || s.isOpen || !s.isExtra key then Entries.get? members key else none := by
    cases o.removeAdditional with
    | true => exact get?_dropExtra s members key
    | false => rfl
  rw [prepare, ← hkept]
  cases o.useDefaults with
  | true => exact get?_fillDefaults hnames _ key
  | false => exact Option.or_none.symm

theorem has_prepare [Pattern.Engine] {o : Options} (ho : o.removeAdditional = false) (s : Schema)
    {members : List (String × Json)} {key : String} (h : Entries.has members key = true) :
    Entries.has (s.prepare o members) key = true := by
  obtain ⟨x, hx⟩ := Option.isSome_iff_exists.mp h
  rw [prepare, ho, if_neg Bool.false_ne_true, Entries.has]
  split
  · rw [get?_fillDefaults_of_some s hx, Option.isSome_some]
  · exact h

theorem has_of_has_prepare [Pattern.Engine] {o : Options} (ho : o.useDefaults = false) {s : Schema}
    {members : List (String × Json)} {key : String} (h : Entries.has (s.prepare o members) key = true) :
    Entries.has members key = true := by
  rw [prepare, ho, if_neg Bool.false_ne_true, Entries.has] at h
  split at h
  · rw [get?_dropExtra] at h
    split at h
    · exact h
    · cases h
  · exact h

/-- No member that stays is changed: one that is dropped is not declared, so no default takes its place. -/
theorem get?_prepare_of_some [Pattern.Engine] {o : Options} {s : Schema} {members : List (String × Json)}
    {key : String} {x y : Json} (hx : Entries.get? members key = some x)
    (hy : Entries.get? (s.prepare o members) key = some y) : y = x := by
  rw [prepare] at hy
  generalize hkept : (if o.removeAdditional then s.dropExtra members else members) = kept at hy
  have hcases : Entries.get? kept key = some x ∨
      Entries.get? kept key = none ∧ s.declares key = false := by
    rw [← hkept]
    cases o.removeAdditional with
    | false => exact .inl hx
    | true =>
      rw [if_pos rfl, get?_dropExtra]
      by_cases hstays : (s.isOpen || !s.isExtra key) = true
      · exact .inl (by rw [if_pos hstays, hx])
      · simp only [Bool.or_eq_true, Bool.not_eq_true', isExtra, not_or, Bool.not_eq_false,
          Bool.and_eq_true] at hstays
        exact .inr ⟨by simp [isExtra, hstays], hstays.2.1⟩
  rcases hcases with hstays | ⟨hgone, hundeclared⟩
  · split at hy
    · rw [get?_fillDefaults_of_some s hstays] at hy
      exact (Option.some.inj hy).symm
    · exact Option.some.inj (hy.symm.trans hstays)
  · split at hy
    · rw [get?_fillDefaults_of_undeclared kept hundeclared, hgone] at hy
      cases hy
    · cases hgone.symm.trans hy

/-! ### Well-keyed schemas -/

/-- At the schema and below it, no name is declared twice, and no default has a key twice in an object.
Every schema is well-keyed that is read from a document whose objects have no key twice. -/
def WellKeyed (s : Schema) : Prop :=
  ∀ t, Within t s → (Entries.keys t.properties).Nodup ∧ ∀ d ∈ t.default, d.WellKeyed

namespace WellKeyed

variable {s t : Schema}

theorem child (h : s.WellKeyed) (ht : Child t s) : t.WellKeyed := fun u hu => h u (.step ht hu)

theorem names (h : s.WellKeyed) : (Entries.keys s.properties).Nodup := (h s (.refl s)).1

theorem default (h : s.WellKeyed) : ∀ d ∈ s.default, d.WellKeyed := (h s (.refl s)).2

end WellKeyed

theorem wellKeyed_prepare [Pattern.Engine] (o : Options) {s : Schema} (hs : s.WellKeyed)
    {members : List (String × Json)} (h : Json.WellKeyed (.object members)) :
    Json.WellKeyed (.object (s.prepare o members)) := by
  refine .object (nodup_keys_prepare o s h.keys) ?_
  have hkept : ∀ e ∈ (if o.removeAdditional then s.dropExtra members else members),
      e.2.WellKeyed := by
    intro e he
    split at he
    · exact h.members e (mem_of_mem_dropExtra he)
    · exact h.members e he
  rw [prepare]
  split
  · refine fillDefaults_rec hkept fun filled name t d ht hd _ hfilled => ?_
    rw [List.forall_mem_append, List.forall_mem_singleton]
    exact ⟨hfilled, (hs.child (.property ht)).default d hd⟩
  · exact hkept

end Schema

end DataSchema
