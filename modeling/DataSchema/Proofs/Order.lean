import DataSchema.Proofs.Facets
import DataSchema.Proofs.Related
import DataSchema.Proofs.Rewriting
import DataSchema.Proofs.Values

/-!
Values up to the order of members.

Two values are *reordered* when they differ only in the order in which the members of objects stand, at
any depth (`Json.Reordered`); of two objects, the members of one are then a permutation of members that
are reordered ones of the other (`Json.Reordered.object_iff`). Equivalence of values, the kinds and
conversion look at no order.
-/

namespace DataSchema

namespace Json

/-- Two values that differ at most in the order of the members of their objects. -/
inductive Reordered : Json → Json → Prop where
  | scalar {x : Json} : x.isScalar = true → Reordered x x
  | array {xs ys : List Json} : List.Forall₂ Reordered xs ys → Reordered (.array xs) (.array ys)
  | object {ms ns : List (String × Json)} : (Entries.keys ms).Nodup → (Entries.keys ns).Nodup →
    (∀ key, Option.Rel Reordered (Entries.get? ms key) (Entries.get? ns key)) →
    Reordered (.object ms) (.object ns)

namespace Reordered

variable {x : Json} {ms ns : List (String × Json)}

theorem ofMembers (h : Entries.Rearranged Reordered ms ns) : Reordered (.object ms) (.object ns) :=
  .object h.left h.right h.rel

theorem refl (hx : x.WellKeyed) : Reordered x x := by
  induction x using Json.induction with
  | scalar x hs => exact .scalar hs
  | array xs ih =>
    refine .array ?_
    rw [List.forall₂_same]
    exact fun x hx' => ih x hx' (hx.items x hx')
  | object ms ih =>
    exact .ofMembers (.of_perm (.refl ms) hx.keys fun e he => ih e he (hx.members e he))

/-- Members that stand in another order. -/
theorem of_perm (h : ms.Perm ns) (hms : WellKeyed (.object ms)) :
    Reordered (.object ms) (.object ns) :=
  .ofMembers (.of_perm h hms.keys fun e he => refl (hms.members e he))

/-- The members of one object, put into another order, are those of the other up to order. -/
theorem object_iff : Reordered (.object ms) (.object ns) ↔
    (Entries.keys ms).Nodup ∧ ∃ ks, ms.Perm ks ∧ List.Forall₂ (Entries.Under Reordered) ks ns := by
  rw [← Entries.rearranged_iff_perm]
  constructor
  · intro h
    cases h with
    | scalar hs => cases hs
    | object hleft hright hrel => exact ⟨hleft, hright, hrel⟩
  · exact ofMembers

end Reordered

/-! ### Equivalence -/

theorem equivalentItems_iff : ∀ xs ys : List Json,
    equivalentItems xs ys = true ↔ List.Forall₂ (fun x y => equivalent x y = true) xs ys
  | [], [] => by simp [equivalentItems]
  | [], _ :: _ => by simp [equivalentItems]
  | _ :: _, [] => by simp [equivalentItems]
  | x :: xs, y :: ys => by
    rw [equivalentItems, Bool.and_eq_true, List.forall₂_cons, equivalentItems_iff xs ys]

theorem equivalentMembers_iff (ns ms : List (String × Json)) :
    equivalentMembers ms ns = true ↔
      ∀ e ∈ ms, ∃ y, Entries.get? ns e.1 = some y ∧ equivalent e.2 y = true := by
  induction ms with
  | nil => simp [equivalentMembers]
  | cons e rest ih =>
    obtain ⟨key, x⟩ := e
    rw [equivalentMembers, Bool.and_eq_true, ih, List.forall_mem_cons]
    cases Entries.get? ns key <;> simp

theorem equivalent_array (xs ys : List Json) :
    equivalent (.array xs) (.array ys) = true ↔
      List.Forall₂ (fun x y => equivalent x y = true) xs ys := by
  rw [equivalent, equivalentItems_iff]

theorem equivalent_object (ms ns : List (String × Json)) :
    equivalent (.object ms) (.object ns) = true ↔
      ms.length = ns.length ∧
        ∀ e ∈ ms, ∃ y, Entries.get? ns e.1 = some y ∧ equivalent e.2 y = true := by
  rw [equivalent, Bool.and_eq_true, beq_iff_eq, equivalentMembers_iff]

theorem equivalent_object_iff_rearranged {ms ns : List (String × Json)}
    (hms : (Entries.keys ms).Nodup) : equivalent (.object ms) (.object ns) = true ↔
      Entries.Rearranged (fun x y => equivalent x y = true) ms ns := by
  rw [equivalent_object, Entries.rearranged_iff_found hms]

/-- The order of members makes no difference on the right side. -/
theorem equivalent_right (c : Json) : ∀ {x y : Json}, Reordered x y →
    equivalent c x = equivalent c y := by
  induction c using Json.induction with
  | scalar c hc =>
    intro x y h
    cases h with
    | scalar _ => rfl
    | array _ => cases c <;> first | rfl | cases hc
    | object _ _ _ => cases c <;> first | rfl | cases hc
  | array cs ih =>
    intro x y h
    cases h with
    | scalar _ => rfl
    | object _ _ _ => rfl
    | array hitems =>
      rw [Bool.eq_iff_iff, equivalent_array, equivalent_array]
      refine forall₂_iff_right hitems fun c hc x _ y hxy => ?_
      rw [ih c hc hxy]
  | object cs ih =>
    intro x y h
    cases h with
    | scalar _ => rfl
    | array _ => rfl
    | object hleft hright hrel =>
      have hmembers := Entries.Rearranged.mk hleft hright hrel
      rw [Bool.eq_iff_iff, equivalent_object, equivalent_object, hmembers.length_eq]
      refine and_congr_right fun _ => forall₂_congr fun e he => ?_
      rcases cases_of_rel (hmembers.rel e.1) with ⟨hx, hy⟩ | ⟨x, y, hx, hy, hxy⟩
      · rw [hx, hy]
      · simp [hx, hy, ih e he hxy]

/-- The order of members makes no difference on the left side. -/
theorem equivalent_left (x : Json) : ∀ {y : Json} (c : Json), Reordered x y →
    equivalent x c = equivalent y c := by
  induction x using Json.induction with
  | scalar x hx =>
    intro y c h
    cases h with
    | scalar _ => rfl
    | array _ => cases hx
    | object _ _ _ => cases hx
  | array xs ih =>
    intro y c h
    cases h with
    | scalar _ => rfl
    | @array _ ys hitems =>
      cases c with
      | array cs =>
        rw [Bool.eq_iff_iff, equivalent_array, equivalent_array]
        refine forall₂_iff_left hitems fun c _ x hx y hxy => ?_
        rw [ih x hx c hxy]
      | _ => rfl
  | object ms ih =>
    intro y c h
    cases h with
    | scalar _ => rfl
    | object hleft hright hrel =>
      have hmembers := Entries.Rearranged.mk hleft hright hrel
      cases c with
      | object cs =>
        rw [Bool.eq_iff_iff, equivalent_object, equivalent_object, hmembers.length_eq]
        refine and_congr_right fun _ => hmembers.forall_mem_iff
          (p := fun key x => ∃ z, Entries.get? cs key = some z ∧ equivalent x z = true)
          (q := fun key y => ∃ z, Entries.get? cs key = some z ∧ equivalent y z = true) ?_
        intro key x y hx _ hxy
        refine exists_congr fun z => and_congr_right fun _ => ?_
        rw [ih (key, x) hx z hxy]
      | _ => rfl

theorem equivalent_congr {x x' y y' : Json} (h : Reordered x y) (h' : Reordered x' y') :
    equivalent x x' = equivalent y y' :=
  (equivalent_left x x' h).trans (equivalent_right y h')

/-! ### Kinds -/

namespace Reordered

variable {x y : Json}

theorem hasKind_eq (h : Reordered x y) (kind : Kind) : x.hasKind kind = y.hasKind kind := by
  cases h with
  | scalar _ => rfl
  | array _ => cases kind <;> rfl
  | object _ _ _ => cases kind <;> rfl

/-- Conversion is the same for scalars, and there is none for other values. -/
theorem rel_coerce? (h : Reordered x y) (kind : Kind) :
    Option.Rel Reordered (x.coerce? kind) (y.coerce? kind) := by
  have hscalar : ∀ z : Json, z.isScalar = false → z.coerce? kind = none := by
    intro z hz
    rw [Option.eq_none_iff_forall_ne_some]
    intro converted hconverted
    cases hz.symm.trans (coerce?_eq_some hconverted).1
  cases h with
  | scalar _ =>
    cases hc : x.coerce? kind with
    | none => exact .none
    | some converted => exact .some (.scalar (coerce?_eq_some hc).2.1)
  | array _ =>
    rw [hscalar _ rfl, hscalar _ rfl]
    exact .none
  | object _ _ _ =>
    rw [hscalar _ rfl, hscalar _ rfl]
    exact .none

theorem isNull_iff (h : Reordered x y) : x = .null ↔ y = .null := by
  cases h with
  | scalar _ => rfl
  | array _ => exact iff_of_false nofun nofun
  | object _ _ _ => exact iff_of_false nofun nofun

end Reordered

end Json

end DataSchema
