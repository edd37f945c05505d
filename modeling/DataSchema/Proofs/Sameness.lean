import DataSchema.Proofs.Acceptance
import DataSchema.Proofs.Equivalence
import DataSchema.Proofs.Reordering

/-!
Schemas that are the same accept the same values.

Sameness leaves open the order of the entries of maps, the form of constants and of listed values, and the
sign of a zero among the bounds. None of this makes a difference to what is accepted, as long as no map has
a key twice (`Schema.accepts_of_same`). A bound is a finite number; only NaN would differ from itself.
-/

namespace DataSchema

/-! ### Bounds of numbers -/

theorem sameBound_iff {x y : Option Binary64} :
    sameBound x y = true ↔ Option.Rel (fun a b => a.units = b.units) x y := by
  cases x <;> cases y <;> simp [sameBound, Binary64.equals_iff]

namespace Binary64

/-- A positive number is not zero and has no sign, so its units tell it apart. -/
theorem div?_congr (x : Binary64) {y z : Binary64} (hy : 0 < y.units) (h : y.units = z.units) :
    x.div? y = x.div? z := by
  have hparts : ∀ w : Binary64, 0 < w.units →
      w.isZero = false ∧ w.negative = false ∧ w.units = w.magnitude := by
    intro w hw
    rw [units] at hw ⊢
    cases hnegative : w.negative with
    | true => rw [hnegative, if_pos rfl] at hw; omega
    | false =>
      rw [hnegative, if_neg (by decide)] at hw
      refine ⟨beq_eq_false_iff_ne.mpr fun hzero => ?_, rfl, rfl⟩
      rw [magnitude, hzero] at hw
      omega
  obtain ⟨hyzero, hysign, hyunits⟩ := hparts y hy
  obtain ⟨hzzero, hzsign, hzunits⟩ := hparts z (h ▸ hy)
  have hmagnitude : y.magnitude = z.magnitude := by omega
  rw [div?, div?, hyzero, hzzero, hysign, hzsign, hmagnitude]

theorem onStep_congr (x : Binary64) {y z : Binary64} (h : y.units = z.units) :
    x.OnStep y ↔ x.OnStep z := by
  rw [OnStep, OnStep, ← h]
  exact imp_congr_right fun hy => by rw [div?_congr x hy h]

end Binary64

theorem NumberFacets.hold_congr {a b : NumberFacets} (h : a.same b = true) (x : Binary64) :
    a.Hold x ↔ b.Hold x := by
  simp only [same, Bool.and_eq_true, sameBound_iff] at h
  obtain ⟨⟨⟨⟨hmin, hmax⟩, hxmin⟩, hxmax⟩, hstep⟩ := h
  have hbound : ∀ {y z : Option Binary64} (p : Int → Prop),
      Option.Rel (fun a b => a.units = b.units) y z → ((∀ a ∈ y, p a.units) ↔ ∀ b ∈ z, p b.units) :=
    fun p hyz => forall_mem_iff_of_rel hyz fun a b hab => by rw [hab]
  have hminimum := hbound (· ≤ x.units) hmin
  have hmaximum := hbound (x.units ≤ ·) hmax
  have hxminimum := hbound (· < x.units) hxmin
  have hxmaximum := hbound (x.units < ·) hxmax
  have hmultiple := forall_mem_iff_of_rel (p := x.OnStep) (q := x.OnStep) hstep
    fun _ _ h => x.onStep_congr h
  constructor
  · rintro ⟨h₁, h₂, h₃, h₄, h₅⟩
    exact ⟨hminimum.mp h₁, hmaximum.mp h₂, hxminimum.mp h₃, hxmaximum.mp h₄, hmultiple.mp h₅⟩
  · rintro ⟨h₁, h₂, h₃, h₄, h₅⟩
    exact ⟨hminimum.mpr h₁, hmaximum.mpr h₂, hxminimum.mpr h₃, hxmaximum.mpr h₄, hmultiple.mpr h₅⟩

namespace Schema

/-! ### The same facets -/

/-- Two values that are equivalent to the same values. -/
def Interchangeable (c d : Json) : Prop :=
  ∀ value, Json.equivalent c value = true ↔ Json.equivalent d value = true

/-- Facets that ask the same. -/
structure FacetsAgree (s t : Schema) : Prop where
  kind : s.kind = t.kind
  nullable : s.nullable = t.nullable
  const : Option.Rel Interchangeable s.const t.const
  enum : Option.Rel (List.Forall₂ Interchangeable) s.enum t.enum
  text : s.text = t.text
  number : ∀ x, s.number.Hold x ↔ t.number.Hold x
  array : s.array = t.array
  object : s.object = t.object
  required : s.required = t.required

theorem sameValue_iff {x y : Option Json} :
    sameValue x y = true ↔ Option.Rel (fun a b => Json.same a b = true) x y := by
  cases x <;> cases y <;> simp [sameValue]

theorem sameValues_iff {x y : Option (List Json)} : sameValues x y = true ↔
    Option.Rel (List.Forall₂ fun a b => Json.same a b = true) x y := by
  cases x <;> cases y <;> simp [sameValues, Json.sameItems_iff]

theorem facetsAgree_of_same {s t : Schema} (hconst : ∀ c ∈ s.const, c.WellKeyed)
    (henum : ∀ cs ∈ s.enum, ∀ c ∈ cs, c.WellKeyed) (h : s.sameFacets t = true) : FacetsAgree s t := by
  simp only [sameFacets, Bool.and_eq_true, beq_iff_eq] at h
  obtain ⟨⟨⟨⟨⟨⟨⟨⟨⟨⟨hkind, hnullable⟩, hlisted⟩, hsame⟩, -⟩, htext⟩, hnumber⟩, harray⟩, hobject⟩,
    hrequired⟩, -⟩ := h
  refine ⟨hkind, hnullable, ?_, ?_, htext, NumberFacets.hold_congr hnumber, harray, hobject, hrequired⟩
  · exact rel_imp (sameValue_iff.mp hsame) fun c _ hc => Json.equivalent_congr_of_same (hconst c hc)
  · exact rel_imp (sameValues_iff.mp hlisted) fun cs _ hcs hall => forall₂_imp hall fun c hc _ =>
      Json.equivalent_congr_of_same (henum cs hcs c hc)

/-! ### The same places -/

/-- Related schemas stand in corresponding places. -/
structure Placewise (R : Schema → Schema → Prop) (s t : Schema) : Prop where
  properties : Entries.Rearranged R s.properties t.properties
  patternProperties : Entries.Rearranged R s.patternProperties t.patternProperties
  additional : Additional.Rel R s.additional t.additional
  items : Option.Rel R s.items t.items
  oneOf : Option.Rel (List.Forall₂ R) s.oneOf t.oneOf
  allOf : Option.Rel (List.Forall₂ R) s.allOf t.allOf
  anyOf : Option.Rel (List.Forall₂ R) s.anyOf t.anyOf
  not : Option.Rel R s.not t.not

namespace Placewise

variable {R P : Schema → Schema → Prop} {s t : Schema}

theorem symm (h : Placewise R s t) : Placewise (flip R) t s where
  properties := h.properties.symm
  patternProperties := h.patternProperties.symm
  additional := h.additional.flip
  items := rel_flip h.items
  oneOf := rel_imp (rel_flip h.oneOf) fun _ _ _ hall => List.Forall₂.flip hall
  allOf := rel_imp (rel_flip h.allOf) fun _ _ _ hall => List.Forall₂.flip hall
  anyOf := rel_imp (rel_flip h.anyOf) fun _ _ _ hall => List.Forall₂.flip hall
  not := rel_flip h.not

theorem imp (h : Placewise R s t) (hP : ∀ c, Child c s → ∀ u, R c u → P c u) : Placewise P s t where
  properties := h.properties.imp fun _ c u hc => hP c (.property hc) u
  patternProperties := h.patternProperties.imp fun _ c u hc => hP c (.pattern hc) u
  additional := h.additional.imp fun c u hc => hP c (.additional hc) u
  items := rel_imp h.items fun c u hc => hP c (.items hc) u
  oneOf := rel_imp h.oneOf fun _ _ hs hall => forall₂_imp hall fun c hc => hP c (.oneOf hs hc)
  allOf := rel_imp h.allOf fun _ _ hs hall => forall₂_imp hall fun c hc => hP c (.allOf hs hc)
  anyOf := rel_imp h.anyOf fun _ _ hs hall => forall₂_imp hall fun c hc => hP c (.anyOf hs hc)
  not := rel_imp h.not fun c u hc => hP c (.not hc) u

theorem declares (h : Placewise R s t) : s.declares = t.declares := funext h.properties.has_eq

variable [Pattern.Engine]

theorem isExtra (h : Placewise R s t) : s.isExtra = t.isExtra := by
  have hmatches : s.matchesKey = t.matchesKey := by
    funext key
    rw [Bool.eq_iff_iff, matchesKey, matchesKey, List.any_eq_true, List.any_eq_true]
    constructor
    · rintro ⟨e, he, haccepts⟩
      obtain ⟨u, hu, -⟩ := h.patternProperties.exists_right he
      exact ⟨_, hu, haccepts⟩
    · rintro ⟨e, he, haccepts⟩
      obtain ⟨c, hc, -⟩ := h.patternProperties.exists_left he
      exact ⟨_, hc, haccepts⟩
  funext key
  rw [Schema.isExtra, Schema.isExtra, h.declares, hmatches]

/-- Whatever governs a part in the first schema has its counterpart in the second. -/
theorem exists_part (h : Placewise R s t) {value x : Json} {c : Schema} (hc : s.Part value c x) :
    ∃ u, t.Part value u x ∧ R c u := by
  cases hc with
  | item hs hx =>
    rcases cases_of_rel h.items with ⟨hnone, -⟩ | ⟨c', u, hc', hu, hcu⟩
    · cases hnone.symm.trans hs
    · cases hc'.symm.trans hs
      exact ⟨u, .item hu hx, hcu⟩
  | declared hs hx =>
    obtain ⟨u, hu, hcu⟩ := h.properties.exists_right hs
    exact ⟨u, .declared hu hx, hcu⟩
  | patterned hx hdeclares hs haccepts =>
    obtain ⟨u, hu, hcu⟩ := h.patternProperties.exists_right hs
    exact ⟨u, .patterned hx (h.declares ▸ hdeclares) hu haccepts, hcu⟩
  | extra hx hextra hs =>
    have hadditional := h.additional
    rw [hs] at hadditional
    generalize ht : t.additional = y at hadditional
    cases hadditional with
    | schema hcu => exact ⟨_, .extra hx (h.isExtra ▸ hextra) ht, hcu⟩

end Placewise

/-! ### The same acceptance -/

/-- Two schemas that accept the same values. -/
def AcceptsAlike [Pattern.Engine] (s t : Schema) : Prop := ∀ value, s.Accepts value ↔ t.Accepts value

theorem exists_only_of_forall₂ [Pattern.Engine] {ss ts : List Schema} {value : Json}
    (h : List.Forall₂ AcceptsAlike ss ts) :
    (∃ before s after, ss = before ++ s :: after ∧ s.Accepts value ∧
      ∀ u ∈ before ++ after, ¬ u.Accepts value) →
        ∃ before t after, ts = before ++ t :: after ∧ t.Accepts value ∧
          ∀ u ∈ before ++ after, ¬ u.Accepts value := by
  rintro ⟨before, s, after, rfl, haccepts, hothers⟩
  obtain ⟨before', t, after', rfl, hst, hrest⟩ := exists_place_of_forall₂ h
  refine ⟨before', t, after', rfl, (hst value).mp haccepts, ?_⟩
  exact (forall_mem_iff_of_forall₂ hrest fun s t hst => not_congr (hst value)).mp hothers

section Acceptance

variable [Pattern.Engine] {s t : Schema} {value : Json}

theorem ownHold_congr (hfacets : FacetsAgree s t) (hplaces : Placewise AcceptsAlike s t) :
    s.OwnHold value ↔ t.OwnHold value := by
  have hconst : (∀ c ∈ s.const, Json.equivalent c value = true) ↔
      ∀ c ∈ t.const, Json.equivalent c value = true :=
    forall_mem_iff_of_rel hfacets.const fun _ _ hcd => hcd value
  have henum : (∀ cs ∈ s.enum, ∃ c ∈ cs, Json.equivalent c value = true) ↔
      ∀ cs ∈ t.enum, ∃ c ∈ cs, Json.equivalent c value = true :=
    forall_mem_iff_of_rel hfacets.enum fun _ _ hall =>
      exists_mem_iff_of_forall₂ hall fun _ _ hcd => hcd value
  have hkeys : ∀ members, s.KeysHold members ↔ t.KeysHold members := by
    intro members
    have hrequired : s.requiredNames = t.requiredNames := by
      rw [requiredNames, requiredNames, hfacets.required]
    have hall : s.KeysHold members ↔ (∀ name ∈ s.requiredNames, Entries.has members name = true) ∧
        s.object.Hold members ∧ (s.isOpen = false → ∀ e ∈ members, s.isExtra e.1 = false) :=
      ⟨fun h => ⟨h.required, h.counts, h.closed⟩, fun h => ⟨h.1, h.2.1, h.2.2⟩⟩
    rw [hall, hrequired, hfacets.object, hplaces.additional.isOpen_eq, hplaces.isExtra]
    exact ⟨fun h => ⟨h.1, h.2.1, h.2.2⟩, fun h => ⟨h.required, h.counts, h.closed⟩⟩
  have hcontent : s.ContentHold value ↔ t.ContentHold value := by
    cases value with
    | string text => rw [ContentHold, ContentHold, hfacets.text]
    | number n => exact hfacets.number n.toDouble
    | array items => rw [ContentHold, ContentHold, hfacets.array]
    | object members => exact hkeys members
    | _ => exact Iff.rfl
  constructor
  · rintro ⟨hkind, hc, he, hown⟩
    exact ⟨hfacets.kind ▸ hkind, hconst.mp hc, henum.mp he, hcontent.mp hown⟩
  · rintro ⟨hkind, hc, he, hown⟩
    exact ⟨hfacets.kind ▸ hkind, hconst.mpr hc, henum.mpr he, hcontent.mpr hown⟩

/-- Schemas with agreeing facets, and with schemas that accept the same values in corresponding places,
accept the same values. -/
theorem acceptsAlike_of_placewise (hfacets : FacetsAgree s t) (hplaces : Placewise AcceptsAlike s t) :
    AcceptsAlike s t := by
  intro value
  have hparts : (∀ c x, s.Part value c x → c.Accepts x) ↔ ∀ u x, t.Part value u x → u.Accepts x := by
    constructor
    · intro h u x hu
      obtain ⟨c, hc, hcu⟩ := hplaces.symm.exists_part hu
      exact (hcu x).mp (h c x hc)
    · intro h c x hc
      obtain ⟨u, hu, hcu⟩ := hplaces.exists_part hc
      exact (hcu x).mpr (h u x hu)
  have hall : (∀ ts ∈ s.allOf, ∀ c ∈ ts, c.Accepts value) ↔ ∀ us ∈ t.allOf, ∀ u ∈ us, u.Accepts value :=
    forall_mem_iff_of_rel hplaces.allOf fun _ _ h => forall_mem_iff_of_forall₂ h fun _ _ hcu => hcu value
  have hnil : ∀ {cs us : List Schema}, List.Forall₂ AcceptsAlike cs us → (cs ≠ [] ↔ us ≠ []) := by
    intro cs us h
    rw [← List.length_pos_iff, ← List.length_pos_iff, h.length_eq]
  have hany : (∀ ts ∈ s.anyOf, ts ≠ [] → ∃ c ∈ ts, c.Accepts value) ↔
      ∀ us ∈ t.anyOf, us ≠ [] → ∃ u ∈ us, u.Accepts value :=
    forall_mem_iff_of_rel hplaces.anyOf fun _ _ h =>
      imp_congr (hnil h) (exists_mem_iff_of_forall₂ h fun _ _ hcu => hcu value)
  have hone : (∀ ts ∈ s.oneOf, ts ≠ [] → ∃ before c after, ts = before ++ c :: after ∧
      c.Accepts value ∧ ∀ u ∈ before ++ after, ¬ u.Accepts value) ↔
        ∀ us ∈ t.oneOf, us ≠ [] → ∃ before c after, us = before ++ c :: after ∧
          c.Accepts value ∧ ∀ u ∈ before ++ after, ¬ u.Accepts value := by
    refine forall_mem_iff_of_rel hplaces.oneOf fun _ _ h => imp_congr (hnil h)
      ⟨exists_only_of_forall₂ h, exists_only_of_forall₂ ?_⟩
    exact (h.imp fun c u hcu value => (hcu value).symm).flip
  have hnot : (∀ c ∈ s.not, ¬ c.Accepts value) ↔ ∀ u ∈ t.not, ¬ u.Accepts value :=
    forall_mem_iff_of_rel hplaces.not fun _ _ hcu => not_congr (hcu value)
  rw [Accepts, Accepts, hfacets.nullable, ownHold_congr hfacets hplaces]
  simp only [exists_prop]
  exact or_congr_right (and_congr_right fun _ => and_congr hparts (and_congr hall
    (and_congr hany (and_congr hone hnot))))

end Acceptance

/-! ### Sameness -/

theorem sameEntries_iff (us : List (String × Schema)) : ∀ cs : List (String × Schema),
    sameEntries cs us = true ↔
      ∀ e ∈ cs, ∃ u, Entries.get? us e.1 = some u ∧ same e.2 u = true
  | [] => by simp [sameEntries]
  | (name, c) :: rest => by
    rw [sameEntries, Bool.and_eq_true, sameEntries_iff us rest, List.forall_mem_cons]
    cases Entries.get? us name <;> simp

theorem sameList_iff : ∀ cs us : List Schema,
    sameList cs us = true ↔ List.Forall₂ (fun c u => same c u = true) cs us
  | [], [] => by simp [sameList]
  | [], _ :: _ => by simp [sameList]
  | _ :: _, [] => by simp [sameList]
  | c :: cs, u :: us => by
    rw [sameList, Bool.and_eq_true, List.forall₂_cons, sameList_iff cs us]

theorem sameBranches_iff {x y : Option (List Schema)} : sameBranches x y = true ↔
    Option.Rel (List.Forall₂ fun c u => same c u = true) x y := by
  cases x <;> cases y <;> simp [sameBranches, sameList_iff]

theorem sameOption_iff {x y : Option Schema} : sameOption x y = true ↔
    Option.Rel (fun c u => same c u = true) x y := by
  cases x <;> cases y <;> simp [sameOption]

theorem additionalRel_of_same {x y : Additional Schema} (h : sameAdditional x y = true) :
    Additional.Rel (fun c u => same c u = true) x y := by
  cases x <;> cases y <;> simp only [sameAdditional, beq_iff_eq, Bool.false_eq_true] at h
  case unspecified.unspecified => exact .unspecified
  case allowed.allowed a b =>
    rw [h]
    exact .allowed b
  case schema.schema c u => exact .schema h

/-- No map in the schema or below it has a key twice, and no value that it compares with. -/
def Distinct (s : Schema) : Prop :=
  ∀ t, Within t s → (Entries.keys t.properties).Nodup ∧ (Entries.keys t.patternProperties).Nodup ∧
    (∀ c ∈ t.const, c.WellKeyed) ∧ ∀ cs ∈ t.enum, ∀ c ∈ cs, c.WellKeyed

theorem same_eq (s t : Schema) : s.same t =
    (s.sameFacets t && s.properties.length == t.properties.length &&
      sameEntries s.properties t.properties &&
      s.patternProperties.length == t.patternProperties.length &&
      sameEntries s.patternProperties t.patternProperties && sameAdditional s.additional t.additional &&
      sameOption s.items t.items && sameBranches s.oneOf t.oneOf && sameBranches s.allOf t.allOf &&
      sameBranches s.anyOf t.anyOf && sameOption s.not t.not) := by
  rw [same.eq_def]
  cases s
  rfl

theorem placewise_of_same {s t : Schema} (hs : s.Distinct) (h : s.same t = true) :
    s.sameFacets t = true ∧ Placewise (fun c u => same c u = true) s t := by
  obtain ⟨hproperties, hpatterns, -⟩ := hs s (.refl s)
  rw [same_eq] at h
  simp only [Bool.and_eq_true, beq_iff_eq, sameEntries_iff, sameOption_iff, sameBranches_iff] at h
  obtain ⟨⟨⟨⟨⟨⟨⟨⟨⟨⟨hfacets, hlength⟩, hfound⟩, hlength'⟩, hfound'⟩, hadditional⟩, hitems⟩, hone⟩, hall⟩,
    hany⟩, hnot⟩ := h
  exact ⟨hfacets, .of_found hproperties hlength hfound, .of_found hpatterns hlength' hfound',
    additionalRel_of_same hadditional, hitems, hone, hall, hany, hnot⟩

theorem accepts_of_same [Pattern.Engine] (s : Schema) : s.Distinct → ∀ {t : Schema}, s.same t = true →
    AcceptsAlike s t := by
  induction s using Schema.induction with
  | step s ih =>
    intro hs t h
    obtain ⟨hfacets, hplaces⟩ := placewise_of_same hs h
    obtain ⟨-, -, hconst, henum⟩ := hs s (.refl s)
    exact acceptsAlike_of_placewise (facetsAgree_of_same hconst henum hfacets)
      (hplaces.imp fun c hc u => ih c hc fun u hu => hs u (.step hc hu))

end Schema

end DataSchema
