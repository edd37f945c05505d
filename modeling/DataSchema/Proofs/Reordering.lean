import DataSchema.Proofs.Checking
import DataSchema.Proofs.Members
import DataSchema.Proofs.Order
import DataSchema.Proofs.Rewriting

/-!
Schemas up to the order of properties.

Two schemas are *reordered* when they differ only in the order in which properties are declared, at any
depth (`Schema.Reordered`). What they have at corresponding places can then be compared place by place
(`Schema.Alike`): the same facets, the same questions about keys, and corresponding schemas to govern
each member. One of them passes the check exactly if the other does (`check_reordered`).
-/

namespace DataSchema

/-- The same answer to what members may be there besides, with related schemas. -/
inductive Additional.Rel {σ τ : Type} (R : σ → τ → Prop) : Additional σ → Additional τ → Prop where
  | unspecified : Rel R .unspecified .unspecified
  | allowed (yes : Bool) : Rel R (.allowed yes) (.allowed yes)
  | schema {s : σ} {t : τ} : R s t → Rel R (.schema s) (.schema t)

namespace Additional.Rel

variable {σ τ : Type} {R P : σ → τ → Prop} {x : Additional σ} {y : Additional τ}

theorem imp (h : Rel R x y) (hP : ∀ s t, x = .schema s → R s t → P s t) : Rel P x y := by
  cases h with
  | unspecified => exact .unspecified
  | allowed yes => exact .allowed yes
  | schema hst => exact .schema (hP _ _ rfl hst)

theorem flip (h : Rel R x y) : Rel (flip R) y x := by
  cases h with
  | unspecified => exact .unspecified
  | allowed yes => exact .allowed yes
  | schema hst => exact .schema hst

end Additional.Rel

theorem Additional.Rel.isOpen_eq {R : Schema → Schema → Prop} {s t : Schema}
    (h : Rel R s.additional t.additional) : s.isOpen = t.isOpen := by
  rw [Schema.isOpen, Schema.isOpen]
  generalize s.additional = x at h
  generalize t.additional = y at h
  cases h <;> rfl

namespace Schema

/-- The schema without the schemas nested in it. -/
def bare (s : Schema) : Schema :=
  { s with properties := [], patternProperties := [], additional := .unspecified, items := none,
           oneOf := none, allOf := none, anyOf := none, not := none }

/-- Two schemas that differ at most in the order of their properties and of those below them. -/
inductive Reordered : Schema → Schema → Prop where
  | intro {s t : Schema} (bare : s.bare = t.bare) (left : (Entries.keys s.properties).Nodup)
      (right : (Entries.keys t.properties).Nodup)
      (properties : ∀ name,
        Option.Rel Reordered (Entries.get? s.properties name) (Entries.get? t.properties name))
      (patternProperties :
        List.Forall₂ (Entries.Under Reordered) s.patternProperties t.patternProperties)
      (additional : Additional.Rel Reordered s.additional t.additional)
      (items : Option.Rel Reordered s.items t.items)
      (oneOf : Option.Rel (List.Forall₂ Reordered) s.oneOf t.oneOf)
      (allOf : Option.Rel (List.Forall₂ Reordered) s.allOf t.allOf)
      (anyOf : Option.Rel (List.Forall₂ Reordered) s.anyOf t.anyOf)
      (not : Option.Rel Reordered s.not t.not) : Reordered s t

/-- Two schemas with the same facets, and with related schemas in corresponding places. -/
structure Alike (R : Schema → Schema → Prop) (s t : Schema) : Prop where
  bare : s.bare = t.bare
  properties : Entries.Rearranged R s.properties t.properties
  patternProperties : List.Forall₂ (Entries.Under R) s.patternProperties t.patternProperties
  additional : Additional.Rel R s.additional t.additional
  items : Option.Rel R s.items t.items
  oneOf : Option.Rel (List.Forall₂ R) s.oneOf t.oneOf
  allOf : Option.Rel (List.Forall₂ R) s.allOf t.allOf
  anyOf : Option.Rel (List.Forall₂ R) s.anyOf t.anyOf
  not : Option.Rel R s.not t.not

theorem Reordered.alike {s t : Schema} (h : s.Reordered t) : Alike Reordered s t := by
  cases h with
  | intro bare left right properties patternProperties additional items oneOf allOf anyOf not =>
    exact ⟨bare, ⟨left, right, properties⟩, patternProperties, additional, items, oneOf, allOf, anyOf,
      not⟩

namespace Alike

variable {R P : Schema → Schema → Prop} {s t : Schema}

/-- A relation between the children of the first schema and those of the second one. -/
theorem imp (h : Alike R s t) (hP : ∀ c, Child c s → ∀ u, R c u → P c u) : Alike P s t where
  bare := h.bare
  properties := h.properties.imp fun _ c u hc => hP c (.property hc) u
  patternProperties := by
    refine forall₂_imp h.patternProperties ?_
    rintro ⟨key, c⟩ hc _ ⟨hcu⟩
    exact .intro (hP c (.pattern hc) _ hcu)
  additional := h.additional.imp fun c u hc => hP c (.additional hc) u
  items := rel_imp h.items fun c u hc => hP c (.items hc) u
  oneOf := rel_imp h.oneOf fun _ _ hs hall => forall₂_imp hall fun c hc => hP c (.oneOf hs hc)
  allOf := rel_imp h.allOf fun _ _ hs hall => forall₂_imp hall fun c hc => hP c (.allOf hs hc)
  anyOf := rel_imp h.anyOf fun _ _ hs hall => forall₂_imp hall fun c hc => hP c (.anyOf hs hc)
  not := rel_imp h.not fun c u hc => hP c (.not hc) u

/-! ### The same facets -/

/-- Whatever does not look at nested schemas is the same of both. -/
theorem same {α : Type} (h : Alike R s t) (f : Schema → α) (hf : ∀ u : Schema, f u.bare = f u) :
    f s = f t := by
  rw [← hf s, h.bare, hf t]

theorem requiredNames (h : Alike R s t) : s.requiredNames = t.requiredNames :=
  h.same Schema.requiredNames fun _ => rfl

theorem isRequired (h : Alike R s t) : s.isRequired = t.isRequired :=
  h.same Schema.isRequired fun _ => rfl

/-! ### The same questions about keys -/

theorem declares (h : Alike R s t) : s.declares = t.declares := funext h.properties.has_eq

variable [Pattern.Engine]

theorem matchesKey (h : Alike R s t) : s.matchesKey = t.matchesKey := by
  funext key
  rw [Schema.matchesKey, Schema.matchesKey]
  have hpatterns := h.patternProperties
  generalize s.patternProperties = ps at hpatterns
  generalize t.patternProperties = qs at hpatterns
  induction hpatterns with
  | nil => rfl
  | cons he _ ih =>
    obtain ⟨_⟩ := he
    rw [List.any_cons, List.any_cons, ih]

theorem isExtra (h : Alike R s t) : s.isExtra = t.isExtra := by
  funext key
  rw [Schema.isExtra, Schema.isExtra, h.declares, h.matchesKey]

omit [Pattern.Engine] in
theorem isOpen (h : Alike R s t) : s.isOpen = t.isOpen := h.additional.isOpen_eq

/-! ### The check -/

omit [Pattern.Engine] in
theorem forall_child_iff {p q : Schema → Prop} (h : Alike (fun c u => p c ↔ q u) s t) :
    (∀ c, Child c s → p c) ↔ ∀ u, Child u t → q u := by
  have hbranches : ∀ {x y : Option (List Schema)},
      Option.Rel (List.Forall₂ fun c u => p c ↔ q u) x y →
        ((∀ cs ∈ x, ∀ c ∈ cs, p c) ↔ ∀ us ∈ y, ∀ u ∈ us, q u) := fun hxy =>
    forall_mem_iff_of_rel hxy fun _ _ hall => forall_mem_iff_of_forall₂ hall fun _ _ => id
  have hadditional : (∀ c, s.additional = .schema c → p c) ↔ ∀ u, t.additional = .schema u → q u := by
    have hrel := h.additional
    generalize s.additional = x at hrel ⊢
    generalize t.additional = y at hrel ⊢
    cases hrel with
    | unspecified => simp
    | allowed yes => simp
    | schema hcu => simpa using hcu
  rw [Schema.forall_child_iff, Schema.forall_child_iff]
  refine and_congr ?_ (and_congr ?_ (and_congr hadditional (and_congr ?_ (and_congr
    (hbranches h.oneOf) (and_congr (hbranches h.allOf) (and_congr (hbranches h.anyOf) ?_))))))
  · exact h.properties.forall_mem_iff (p := fun _ c => p c) (q := fun _ u => q u)
      fun _ _ _ _ _ hcu => hcu
  · refine forall_mem_iff_of_forall₂ h.patternProperties ?_
    rintro _ _ ⟨hcu⟩
    exact hcu
  · exact forall_mem_iff_of_rel h.items fun _ _ => id
  · exact forall_mem_iff_of_rel h.not fun _ _ => id

theorem facetFault? (h : Alike R s t) (strict : Bool) :
    s.facetFault? strict = t.facetFault? strict := by
  have hbounds := h.same (fun u => (u.text, u.number, u.array, u.object)) fun _ => rfl
  simp only [Prod.mk.injEq] at hbounds
  obtain ⟨htext, hnumber, harray, hobject⟩ := hbounds
  rw [Schema.facetFault?, Schema.facetFault?, strictFault?, strictFault?, h.declares, h.requiredNames,
    htext, hnumber, harray, hobject]

theorem sound_iff (h : Alike R s t) (hR : ∀ c u, R c u → c.default = u.default) (strict : Bool) :
    s.Sound strict ↔ t.Sound strict := by
  have hdefaults : (∀ e ∈ s.properties, s.optionalDefault e.1 e.2 = false) ↔
      ∀ e ∈ t.properties, t.optionalDefault e.1 e.2 = false := by
    refine h.properties.forall_mem_iff (p := fun name c => s.optionalDefault name c = false)
      (q := fun name u => t.optionalDefault name u = false) fun name c u _ _ hcu => ?_
    rw [optionalDefault, optionalDefault, h.isRequired, hR c u hcu]
  have hpatterns : (∀ e ∈ s.patternProperties, patternFault? e.1 = none) ↔
      ∀ e ∈ t.patternProperties, patternFault? e.1 = none := by
    refine forall_mem_iff_of_forall₂ h.patternProperties ?_
    rintro _ _ ⟨_⟩
    rfl
  constructor
  · intro hs
    exact ⟨h.facetFault? strict ▸ hs.facets, fun hstrict => hdefaults.mp (hs.defaults hstrict),
      hpatterns.mp hs.patterns⟩
  · intro ht
    exact ⟨(h.facetFault? strict).symm ▸ ht.facets, fun hstrict => hdefaults.mpr (ht.defaults hstrict),
      hpatterns.mpr ht.patterns⟩

end Alike

def withProperties (s : Schema) (ps : List (String × Schema)) : Schema := { s with properties := ps }

theorem Reordered.ofProperties {s : Schema} {ps : List (String × Schema)}
    (hps : Entries.Rearranged Reordered s.properties ps) (h : ∀ c, Child c s → c.Reordered c) :
    s.Reordered (s.withProperties ps) := by
  have hbranches : ∀ branches : Option (List Schema),
      (∀ ts, branches = some ts → ∀ t ∈ ts, Child t s) →
        Option.Rel (List.Forall₂ Reordered) branches branches := fun branches hb =>
    rel_same fun ts hts => List.forall₂_same.mpr fun t ht => h t (hb ts hts t ht)
  refine .intro rfl hps.left hps.right hps.rel ?_ ?_
    (rel_same fun t ht => h t (.items ht)) (hbranches _ fun _ hts _ => .oneOf hts)
    (hbranches _ fun _ hts _ => .allOf hts) (hbranches _ fun _ hts _ => .anyOf hts)
    (rel_same fun t ht => h t (.not ht))
  · exact List.forall₂_same.mpr fun e he => .intro (h e.2 (.pattern he))
  · show Additional.Rel Reordered s.additional s.additional
    cases hs : s.additional with
    | unspecified => exact .unspecified
    | allowed yes => exact .allowed yes
    | schema t => exact .schema (h t (.additional hs))

theorem Reordered.refl (s : Schema) : s.WellKeyed → s.Reordered s := by
  induction s using Schema.induction with
  | step s ih =>
    intro hs
    have hchildren : ∀ c, Child c s → c.Reordered c := fun c hc => ih c hc (hs.child hc)
    have hself := ofProperties (.of_perm (.refl _) hs.names fun e he => hchildren e.2 (.property he))
      hchildren
    have hsame : s.withProperties s.properties = s := by cases s; rfl
    rwa [hsame] at hself

/-- Properties that stand in another order. -/
theorem Reordered.of_perm {s : Schema} {ps : List (String × Schema)} (hs : s.WellKeyed)
    (h : s.properties.Perm ps) : s.Reordered (s.withProperties ps) := by
  have hchildren : ∀ c, Child c s → c.Reordered c := fun c hc => .refl c (hs.child hc)
  exact .ofProperties (.of_perm h hs.names fun e he => hchildren e.2 (.property he)) hchildren

theorem Reordered.default {s t : Schema} (h : s.Reordered t) : s.default = t.default :=
  h.alike.same Schema.default fun _ => rfl

/-- The order of properties makes no difference to whether a schema asks for a time. -/
theorem timeless_reordered (s : Schema) : ∀ {t : Schema}, s.Reordered t → (s.Timeless ↔ t.Timeless) := by
  induction s using Schema.induction with
  | step s ih =>
    intro t h
    have hchildren : Alike (fun c u => c.Timeless ↔ u.Timeless) s t :=
      h.alike.imp fun c hc u => ih c hc
    rw [timeless_iff, timeless_iff, hchildren.forall_child_iff, h.alike.same Schema.text fun _ => rfl]

/-- The order of properties makes no difference to whether a schema passes the check. -/
theorem check_reordered [Pattern.Engine] (strict : Bool) (s : Schema) : ∀ {t : Schema}, s.Reordered t →
    (s.check strict = .ok () ↔ t.check strict = .ok ()) := by
  induction s using Schema.induction with
  | step s ih =>
    intro t h
    have hchildren : Alike (fun c u => c.check strict = .ok () ↔ u.check strict = .ok ()) s t :=
      h.alike.imp fun c hc u => ih c hc
    rw [check_eq_ok_iff, check_eq_ok_iff, hchildren.forall_child_iff,
      h.alike.sound_iff (fun c u hcu => hcu.default) strict]

end Schema

end DataSchema
