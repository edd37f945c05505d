import DataSchema.Pattern.Reader
import DataSchema.Proofs.Effects
import DataSchema.Proofs.Rewriting
import DataSchema.Proofs.Validator

/-!
What the options that are off keep from changing.

Each of the three options that rewrite is the only source of one kind of change: removal of places that
go away, defaults of places that come up, and conversion of scalars that become other scalars. What this
rules out when an option is off is a preorder between values (`Frame`), and it allows every rewriting that
the options permit, so a run obeys it whatever it finds (`Schema.frame_evaluate`). Only removal and
defaults together can put something else in a place: one branch removes what the next one fills in.
-/

namespace DataSchema

/-- Removal and defaults are both on. -/
def Options.refills (o : Options) : Prop := o.removeAdditional = true ∧ o.useDefaults = true

/-- What the options rule out between a value and what is made of it, place by place. -/
structure Frame (o : Options) (before after : Json) : Prop where
  /-- Without removal no place goes away. -/
  kept : o.removeAdditional = false → ∀ p, (before.at? p).isSome → (after.at? p).isSome
  /-- Without defaults no place comes up. -/
  original : o.useDefaults = false → ∀ p, (after.at? p).isSome → (before.at? p).isSome
  /-- An array stays one and keeps its length, and an object and a scalar stay what they are. -/
  form : ¬ o.refills → ∀ p x y, before.at? p = some x → after.at? p = some y → x.SameForm y
  /-- Without conversion a scalar stays the same. -/
  scalar : o.coerceTypes = false → ¬ o.refills → ∀ p x y, before.at? p = some x →
    after.at? p = some y → x.isScalar = true → y = x

namespace Frame

variable {o : Options} {x y z : Json}

theorem refl (o : Options) (x : Json) : Frame o x x where
  kept _ _ := id
  original _ _ := id
  form _ p a b ha hb := by
    rw [Option.some.inj (ha.symm.trans hb)]
    exact .refl b
  scalar _ _ p a b ha hb _ := Option.some.inj (hb.symm.trans ha)

/-- A place that is there at both ends is there in between, unless it can go away and come up again. -/
theorem exists_between (h : Frame o x y) (h' : Frame o y z) (ho : ¬ o.refills) {p : Path} {a b : Json}
    (ha : x.at? p = some a) (hb : z.at? p = some b) : ∃ m, y.at? p = some m := by
  rw [← Option.isSome_iff_exists]
  by_cases hremove : o.removeAdditional = true
  · have hdefaults : o.useDefaults = false := Bool.eq_false_iff.mpr fun hd => ho ⟨hremove, hd⟩
    exact h'.original hdefaults p (Option.isSome_of_mem hb)
  · exact h.kept (Bool.eq_false_iff.mpr hremove) p (Option.isSome_of_mem ha)

theorem trans (h : Frame o x y) (h' : Frame o y z) : Frame o x z where
  kept ho p := h'.kept ho p ∘ h.kept ho p
  original ho p := h.original ho p ∘ h'.original ho p
  form ho p a b ha hb := by
    obtain ⟨m, hm⟩ := exists_between h h' ho ha hb
    exact (h.form ho p a m ha hm).trans (h'.form ho p m b hm hb)
  scalar hc ho p a b ha hb hscalar := by
    obtain ⟨m, hm⟩ := exists_between h h' ho ha hb
    obtain rfl := h.scalar hc ho p a m ha hm hscalar
    exact h'.scalar hc ho p m b hm hb hscalar

instance (o : Options) : IsPreorder Json (Frame o) where
  refl := Frame.refl o
  trans _ _ _ := Frame.trans

/-! ### From the parts to the whole -/

/-- A frame for the parts that are on both sides, and none on one side only that the options rule out. -/
theorem of_steps (hform : x.SameForm y)
    (hscalar : o.coerceTypes = false → x.isScalar = true → y = x)
    (hkept : o.removeAdditional = false → ∀ step, (x.step? step).isSome → (y.step? step).isSome)
    (horiginal : o.useDefaults = false → ∀ step, (y.step? step).isSome → (x.step? step).isSome)
    (hboth : ∀ step a b, x.step? step = some a → y.step? step = some b → Frame o a b) :
    Frame o x y where
  kept ho p hp := by
    cases p with
    | nil => rfl
    | cons step rest =>
      obtain ⟨a, ha, harest⟩ := Json.isSome_at?_cons.mp hp
      obtain ⟨b, hb⟩ := Option.isSome_iff_exists.mp (hkept ho step (Option.isSome_of_mem ha))
      exact Json.isSome_at?_cons.mpr ⟨b, hb, (hboth step a b ha hb).kept ho rest harest⟩
  original ho p hp := by
    cases p with
    | nil => rfl
    | cons step rest =>
      obtain ⟨b, hb, hbrest⟩ := Json.isSome_at?_cons.mp hp
      obtain ⟨a, ha⟩ := Option.isSome_iff_exists.mp (horiginal ho step (Option.isSome_of_mem hb))
      exact Json.isSome_at?_cons.mpr ⟨a, ha, (hboth step a b ha hb).original ho rest hbrest⟩
  form ho p a b ha hb := by
    cases p with
    | nil =>
      cases ha
      cases hb
      exact hform
    | cons step rest =>
      obtain ⟨a', ha', harest⟩ := Json.at?_cons_eq_some.mp ha
      obtain ⟨b', hb', hbrest⟩ := Json.at?_cons_eq_some.mp hb
      exact (hboth step a' b' ha' hb').form ho rest a b harest hbrest
  scalar hc ho p a b ha hb hs := by
    cases p with
    | nil =>
      cases ha
      cases hb
      exact hscalar hc hs
    | cons step rest =>
      obtain ⟨a', ha', harest⟩ := Json.at?_cons_eq_some.mp ha
      obtain ⟨b', hb', hbrest⟩ := Json.at?_cons_eq_some.mp hb
      exact (hboth step a' b' ha' hb').scalar hc ho rest a b harest hbrest hs

/-- Two containers with the same steps into them, and frames for what these lead to. -/
theorem of_rel_steps (hform : x.SameForm y) (hx : x.isScalar = false)
    (h : ∀ step, Option.Rel (Frame o) (x.step? step) (y.step? step)) : Frame o x y := by
  refine of_steps hform (fun _ hs => absurd hs (by rw [hx]; decide)) ?_ ?_ ?_
  · exact fun _ step hstep => isSome_of_rel (h step) ▸ hstep
  · exact fun _ step hstep => (isSome_of_rel (h step)).symm ▸ hstep
  · intro step a b ha hb
    have hstep := h step
    rw [ha, hb] at hstep
    cases hstep with
    | some hab => exact hab

theorem array {xs ys : List Json} (h : List.Forall₂ (Frame o) xs ys) :
    Frame o (.array xs) (.array ys) := by
  refine of_rel_steps (.array h.length_eq) rfl fun step => ?_
  cases step with
  | key name => exact .none
  | index i => exact rel_getElem? h i

theorem object {ms ns : List (String × Json)} (h : List.Forall₂ (Entries.Under (Frame o)) ms ns) :
    Frame o (.object ms) (.object ns) := by
  refine of_rel_steps .object rfl fun step => ?_
  cases step with
  | key name => exact Entries.rel_get? h name
  | index i => exact .none

/-! ### The two rewritings -/

theorem admitted {s : Schema} (h : s.admit? o x = some y) : Frame o x y := by
  rcases (Schema.admit?_eq_some h).2 with rfl | ⟨hcoerce, hx, hy⟩
  · exact refl o y
  · have hnone := Json.step?_of_isScalar hx
    refine of_steps (.scalar hx hy) (fun hc _ => absurd hc (by rw [hcoerce]; decide)) ?_ ?_ ?_
    · intro _ step hstep
      rw [hnone step] at hstep
      cases hstep
    · intro _ step hstep
      rw [Json.step?_of_isScalar hy step] at hstep
      cases hstep
    · intro step a b ha
      rw [hnone step] at ha
      cases ha

theorem prepared [Pattern.Engine] (o : Options) (s : Schema) (ms : List (String × Json)) :
    Frame o (.object ms) (.object (s.prepare o ms)) := by
  refine of_steps .object (fun _ hs => by cases hs) ?_ ?_ ?_
  · rintro ho (name | i) hstep
    · exact Schema.has_prepare ho s hstep
    · cases hstep
  · rintro ho (name | i) hstep
    · exact Schema.has_of_has_prepare ho hstep
    · cases hstep
  · rintro (name | i) a b ha hb
    · rw [Schema.get?_prepare_of_some ha hb]
      exact refl o a
    · cases ha

end Frame

namespace Schema

variable [Pattern.Engine]

theorem allows_frame (o : Options) (s : Schema) : s.Allows o (Frame o) where
  array := Frame.array
  object := Frame.object
  admitted _ := Frame.admitted
  prepared ms _ := Frame.prepared o _ ms

theorem frame_evaluate (o : Options) (listed : Bool) (s : Schema) (value : Json) :
    Frame o value (s.evaluate o listed value).value :=
  s.obeys_evaluate (allows_frame o s) listed value

end Schema

namespace Validator

/-- Between a value and what a validator hands back there is nothing but what its options permit, whether
the value passes or not. -/
theorem frame_validate [Pattern.Engine] (v : Validator) (value : Json) :
    Frame v.options value (v.validate value).value :=
  v.schema.frame_evaluate v.options false value

/-- With removal and defaults both on, one branch drops an object and the next one fills in a text. -/
example :
    (Schema.evaluate { removeAdditional := true } false
      { allOf := some [Schema.emptyObject,
          { properties := [("k", { default := some (.string "d") })], required := some ["k"] }] }
      (.object [("k", .object [])])).value = .object [("k", .string "d")] := rfl

end Validator

end DataSchema
