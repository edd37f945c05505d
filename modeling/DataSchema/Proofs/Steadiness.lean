import DataSchema.Pattern.Reader
import DataSchema.Proofs.Relaxing

/-!
Schemas that require nothing at any depth.

To require nothing lets more values in, and below `oneOf` and `not` to let more in can shut others out. So
a schema that is made optional at every depth can refuse a value that it took
(`Validator.toDeepOptionals_not_loosens`). It does not where the schemas below those two keywords keep to
what they say of the value (`Schema.Steady`, `Schema.accepts_toDeepOptionals`). No value needs to be looked
at if whatever requires a member stands below no `oneOf`, and below an even number of `not`
(`Schema.Sided`, `Schema.accepts_of_sided`).
-/

namespace DataSchema

namespace Schema

variable [Pattern.Engine] {s t : Schema} {value x : Json}

/-! ### Steady values -/

/-- Wherever the value or a part of it comes to `oneOf` or `not`, no schema there that refuses it takes it
once nothing is required. -/
def Steady (s : Schema) (value : Json) : Prop :=
  (value = .null ∧ s.nullable = true) ∨
    ((∀ t x, (_ : s.Part value t x) → Steady t x) ∧
      (∀ ts, (_ : s.allOf = some ts) → ∀ t, (_ : t ∈ ts) → Steady t value) ∧
      (∀ ts, (_ : s.anyOf = some ts) → ts ≠ [] → ∃ t, ∃ _ : t ∈ ts, t.Accepts value ∧ Steady t value) ∧
      (∀ ts, (_ : s.oneOf = some ts) → ∀ t, (_ : t ∈ ts) → (t.Accepts value → Steady t value) ∧
        (¬ t.Accepts value → ¬ t.toDeepOptionals.Accepts value)) ∧
      ∀ t, s.not = some t → ¬ t.Accepts value → ¬ t.toDeepOptionals.Accepts value)
termination_by sizeOf s
decreasing_by
  · exact (Part.child ‹_›).sizeOf_lt
  · exact (Child.allOf ‹_› ‹_›).sizeOf_lt
  · exact (Child.anyOf ‹_› ‹_›).sizeOf_lt
  · exact (Child.oneOf ‹_› ‹_›).sizeOf_lt

theorem accepts_toDeepOptionals (s : Schema) : ∀ value : Json,
    s.Accepts value → s.Steady value → s.toDeepOptionals.Accepts value := by
  induction s using Schema.induction with
  | step s ih =>
    intro value haccepts hsteady
    rw [toDeepOptionals_eq]
    refine Accepts.toOptionals (accepts_mapChildren_iff.mpr ?_)
    rw [accepts_iff_acceptsBy] at haccepts
    rw [Steady] at hsteady
    rcases hsteady with hnull | ⟨sparts, sall, sany, sone, snot⟩
    · exact .inl hnull
    · refine haccepts.mono (fun t x ht h => ih t ht.child x h (sparts t x ht))
        (fun ts hs t ht h => ih t (.allOf hs ht) value h (sall ts hs t ht)) ?_ ?_ ?_
      · rintro ts hs ⟨t, ht, -⟩
        obtain ⟨u, hu, haccepts, hsteady⟩ := sany ts hs (List.ne_nil_of_mem ht)
        exact ⟨u, hu, ih u (.anyOf hs hu) value haccepts hsteady⟩
      · intro ts hs t ht
        obtain ⟨hsteady, hrefuses⟩ := sone ts hs t ht
        exact ⟨fun h => ih t (.oneOf hs ht) value h (hsteady h), not_imp_not.mp hrefuses⟩
      · exact fun t hs => not_imp_not.mp (snot t hs)

/-! ### Sides -/

/-- The schema without the two keywords under which to take more can mean to take less. -/
def oneSided (s : Schema) : Schema := { s with oneOf := none, not := none }

omit [Pattern.Engine] in
theorem Child.of_oneSided (h : Child t s.oneSided) : Child t s := by
  cases h with
  | property h => exact .property h
  | pattern h => exact .pattern h
  | additional h => exact .additional h
  | items h => exact .items h
  | allOf h ht => exact .allOf h ht
  | anyOf h ht => exact .anyOf h ht
  | oneOf h _ => cases h
  | not h => cases h

theorem Part.child_oneSided (h : s.Part value t x) : Child t s.oneSided := by
  cases h with
  | item ht _ => exact .items ht
  | declared ht _ => exact .property ht
  | patterned _ _ ht _ => exact .pattern ht
  | extra _ _ ht => exact .additional ht

/-- On the one side the schema may require what it likes, on the other one it requires nothing. Below
`not` the sides change, and what is below `oneOf` is on both. -/
def Sided (free : Bool) (s : Schema) : Prop :=
  (free = false → s.requiredNames = []) ∧
    (∀ t, (_ : Child t s.oneSided) → Sided free t) ∧
    (∀ ts, (_ : s.oneOf = some ts) → ∀ t, (_ : t ∈ ts) → ∀ side, Sided side t) ∧
    ∀ t, (_ : s.not = some t) → Sided (!free) t
termination_by sizeOf s
decreasing_by
  · exact (Child.of_oneSided ‹_›).sizeOf_lt
  · exact (Child.oneOf ‹_› ‹_›).sizeOf_lt
  · exact (Child.not ‹_›).sizeOf_lt

/-- A schema that requires nothing accepts no more once it is made optional. -/
theorem Accepts.of_toOptionals (hrequired : s.requiredNames = []) (h : s.toOptionals.Accepts value) :
    s.Accepts value := by
  have hown : s.toOptionals.OwnHold value → s.OwnHold value := by
    rintro ⟨hkind, hconst, henum, hcontent⟩
    refine ⟨hkind, hconst, henum, ?_⟩
    cases value with
    | object members =>
      refine ⟨by simp [hrequired], hcontent.counts, fun hopen e he => ?_⟩
      rw [← isExtra_toOptionals, hcontent.closed hopen e he]
    | _ => exact hcontent
  rw [accepts_iff_acceptsBy] at h ⊢
  refine Or.imp_right (fun ⟨hholds, hparts, hcombined⟩ => ⟨hown hholds, ?_, hcombined⟩) h
  exact (forall_part_toOptionals fun _ _ => accepts_withoutDefault).mp hparts

/-- What is accepted by one reading of the children is accepted by another one that takes as much on the
same side and no more on the other. -/
theorem AcceptsBy.mono_of_sided {A B : Schema → Json → Prop} {free : Bool} (hsided : s.Sided free)
    (h : s.AcceptsBy A value) (hsame : ∀ t, Child t s → ∀ x, t.Sided free → A t x → B t x)
    (hother : ∀ t, Child t s → ∀ x, t.Sided (!free) → B t x → A t x) : s.AcceptsBy B value := by
  rw [Sided] at hsided
  obtain ⟨-, hbelow, hone, hnot⟩ := hsided
  refine h.mono (fun t x ht => hsame t ht.child x (hbelow t ht.child_oneSided))
    (fun ts hs t ht => hsame t (.allOf hs ht) value (hbelow t (.allOf hs ht))) ?_
    (fun ts hs t ht => ?_) fun t hs => hother t (.not hs) value (hnot t hs)
  · rintro ts hs ⟨t, ht, hA⟩
    exact ⟨t, ht, hsame t (.anyOf hs ht) value (hbelow t (.anyOf hs ht)) hA⟩
  · have hsides := hone ts hs t ht
    exact ⟨hsame t (.oneOf hs ht) value (hsides free), hother t (.oneOf hs ht) value (hsides !free)⟩

/-- On the free side no value is lost, on the other side none is won. -/
theorem accepts_of_sided (s : Schema) : ∀ value : Json,
    (s.Sided true → s.Accepts value → s.toDeepOptionals.Accepts value) ∧
      (s.Sided false → s.toDeepOptionals.Accepts value → s.Accepts value) := by
  induction s using Schema.induction with
  | step s ih =>
    intro value
    rw [toDeepOptionals_eq]
    constructor
    · intro hsided haccepts
      refine Accepts.toOptionals (accepts_mapChildren_iff.mpr ?_)
      exact (accepts_iff_acceptsBy.mp haccepts).mono_of_sided hsided (fun t ht x => (ih t ht x).1)
        fun t ht x => (ih t ht x).2
    · intro hsided haccepts
      have hrequired : s.requiredNames = [] := by
        rw [Sided] at hsided
        exact hsided.1 rfl
      have hmapped : (s.mapChildren toDeepOptionals).Accepts value := .of_toOptionals hrequired haccepts
      refine accepts_iff_acceptsBy.mpr ?_
      exact (accepts_mapChildren_iff.mp hmapped).mono_of_sided hsided (fun t ht x => (ih t ht x).2)
        fun t ht x => (ih t ht x).1

omit [Pattern.Engine] in
/-- Where no time was asked for, none is. -/
theorem timeless_toDeepOptionals (s : Schema) : s.Timeless → s.toDeepOptionals.Timeless := by
  induction s using Schema.induction with
  | step s ih =>
    intro h
    obtain ⟨hown, hchildren⟩ := timeless_iff.mp h
    have hdefault : ∀ c : Schema, c.Timeless → c.withoutDefault.Timeless := by
      intro c hc
      obtain ⟨hown, hchildren⟩ := timeless_iff.mp hc
      exact timeless_iff.mpr ⟨hown, forall_child_withoutDefault.mpr hchildren⟩
    rw [toDeepOptionals_eq]
    refine timeless_iff.mpr ⟨hown, forall_child_toOptionals (forall_child_mapChildren.mpr ?_) hdefault⟩
    exact fun t ht => ih t ht (hchildren t ht)

end Schema

namespace Validator

/-- A schema that requires nothing at any depth compiles where the schema does, and takes what it took,
if the run comes to its end: every value for which the schemas below `oneOf` and `not` stay as they are, and
every value at all if these require nothing on the side where less is let in. If the schema asks for no time,
the run always comes to its end. -/
theorem passes_toDeepOptionals [Pattern.Engine] {s : Schema} {o : Options} {v : Validator}
    (h : compile s o.plain = .ok v) :
    ∃ w, compile s.toDeepOptionals o.plain = .ok w ∧
      (∀ value, s.Steady value → v.Passes value → w.breaksOff value = false → w.Passes value) ∧
      (s.Sided true → ∀ value, v.Passes value → w.breaksOff value = false → w.Passes value) ∧
      (s.Timeless → ∀ value, w.breaksOff value = false) := by
  have hcompiled := compile_of_check (s.check_toDeepOptionals (check_of_compile h))
  refine ⟨_, hcompiled, fun value hsteady hpasses hend => ?_, fun hsided value hpasses hend => ?_,
    fun htimeless => breaksOff_of_timeless (s.timeless_toDeepOptionals htimeless)⟩
  all_goals
    have haccepts := (validate_plain_iff h value).1.mp (passes_iff.mp hpasses).2
    refine passes_iff.mpr ⟨hend, (validate_plain_iff hcompiled value).1.mpr ?_⟩
  · exact s.accepts_toDeepOptionals value haccepts hsteady
  · exact (s.accepts_of_sided value).1 hsided haccepts

/-- A text, or an object with an identity. -/
def reference : Schema where
  oneOf := some [Schema.ofKind .string, {
    kind := some .object
    properties := [("id", Schema.ofKind .string)]
    required := some ["id"] }]

/-- A text is no object, with an identity or without, so it passes as it did. -/
theorem passes_toDeepOptionals_reference :
    compile reference (Options.plain {}) = .ok ⟨reference, Options.plain {}, rfl⟩ ∧
      reference.Steady (.string "a") ∧
      ∃ w, compile reference.toDeepOptionals (Options.plain {}) = .ok w ∧ w.Passes (.string "a") := by
  have hcompiled : compile reference (Options.plain {}) = .ok ⟨reference, Options.plain {}, rfl⟩ := rfl
  have hsteady : reference.Steady (.string "a") := by
    rw [Schema.Steady]
    refine .inr ⟨nofun, nofun, nofun, ?_, nofun⟩
    rintro ts ⟨rfl⟩ t ht
    obtain rfl | ht := List.mem_cons.mp ht
    · refine ⟨fun _ => ?_, fun hrefuses => absurd (Schema.accepts_ofKind.mpr rfl) hrefuses⟩
      rw [Schema.Steady]
      exact .inr ⟨nofun, nofun, nofun, nofun, nofun⟩
    · obtain rfl := List.mem_singleton.mp ht
      refine ⟨fun haccepts => ?_, fun _ haccepts => ?_⟩
      · exact absurd ((Schema.judges_evaluate {} _ false _).passes_iff.mpr haccepts) (by decide)
      · exact absurd ((Schema.judges_evaluate {} _ false _).passes_iff.mpr haccepts) (by decide)
  have hpasses : (Validator.mk reference (Options.plain {}) rfl).Passes (.string "a") :=
    passes_iff.mpr ⟨by decide, by decide⟩
  obtain ⟨w, hw, hkept, -, hends⟩ := passes_toDeepOptionals hcompiled
  have hend := hends (Schema.of_allWithin 3 (by decide)) (.string "a")
  exact ⟨hcompiled, hsteady, w, hw, hkept _ hsteady hpasses hend⟩

/-- Whatever is without the member `a`. -/
def lacking : Schema := { not := some { required := some ["a"] } }

/-- One of two members, but not both. -/
def exclusive : Schema := { oneOf := some [{ required := some ["a"] }, { required := some ["b"] }] }

/-- The empty object lacks the member, and is refused once the schema below `not` requires nothing. An object
with the member of one branch is refused once the other branch takes it too. -/
theorem toDeepOptionals_not_loosens :
    ¬ Loosens lacking lacking.toDeepOptionals ∧ ¬ Loosens exclusive exclusive.toDeepOptionals := by
  constructor
  · intro h
    exact absurd (h.clears rfl (.object []) ⟨by decide, by decide⟩).1 (by decide)
  · intro h
    exact absurd (h.clears rfl (.object [("a", .ofNat 1)]) ⟨by decide, by decide⟩).1 (by decide +kernel)

end Validator

end DataSchema
