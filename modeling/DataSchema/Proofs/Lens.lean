import DataSchema.Access.Accessor
import DataSchema.Proofs.Replacing

/-!
Reading and replacing along a path obey the laws of a lens.

What was put at a path is read there; putting what is there changes nothing; of two replacements at one
path the second one counts. A replacement leaves alone what lies at every path that parts from its own:
all that can come up there are the nulls between the end of an array and the index that is filled
(`Shared.at?_place_of_diverges`). Each law is one induction on the path over the lemmas on one refilled
container.
-/

namespace DataSchema

namespace Path

/-- The paths part at some step: neither leads on from where the other ends. -/
def Diverges (p q : Path) : Prop := ¬ p <+: q ∧ ¬ q <+: p

instance (p q : Path) : Decidable (p.Diverges q) := inferInstanceAs (Decidable (_ ∧ _))

theorem not_diverges_nil (q : Path) : ¬ Diverges [] q := fun h => h.1 List.nil_prefix

theorem not_diverges_nil_right (p : Path) : ¬ Diverges p [] := fun h => h.2 List.nil_prefix

theorem diverges_cons {a b : Step} {p q : Path} :
    Diverges (a :: p) (b :: q) ↔ (a = b → Diverges p q) := by
  rw [Diverges, List.cons_prefix_cons, List.cons_prefix_cons, Diverges]
  constructor
  · rintro ⟨hp, hq⟩ rfl
    exact ⟨fun h => hp ⟨rfl, h⟩, fun h => hq ⟨rfl, h⟩⟩
  · intro h
    exact ⟨fun ⟨hab, hp⟩ => (h hab).1 hp, fun ⟨hba, hq⟩ => (h hba.symm).2 hq⟩

end Path

namespace Shared

variable {fresh : Nat} {current : Option Shared} {path q : Path} {x value first new : Shared}

theorem at?_append (x : Shared) (p q : Path) : x.at? (p ++ q) = (x.at? p).bind (·.at? q) := by
  induction p generalizing x with
  | nil => rfl
  | cons step rest ih =>
    rw [List.cons_append, at?, at?, Option.bind_assoc]
    simp only [ih]

theorem bind_at?_cons (current : Option Shared) (step : Step) (rest : Path) :
    current.bind (·.at? (step :: rest)) = (current.bind (·.step? step)).bind (·.at? rest) := by
  rw [Option.bind_assoc]
  rfl

/-! ### Reading after replacing -/

theorem at?_place (h : place fresh path current value = .ok new) : new.at? path = some value := by
  induction path generalizing fresh current new with
  | nil =>
    cases h
    rfl
  | cons step rest ih =>
    obtain ⟨_, part, hpart, rfl⟩ := place_cons_eq_ok_iff.mp h
    rw [at?, step?_refilled, Option.bind_some, ih hpart]

/-! ### Replacing by what is there -/

theorem exists_place_of_at? (fresh : Nat) (h : x.at? path = some value) :
    ∃ new, place fresh path (some x) value = .ok new ∧ new.toJson = x.toJson := by
  induction path generalizing fresh x with
  | nil =>
    cases h
    exact ⟨value, rfl, rfl⟩
  | cons step rest ih =>
    obtain ⟨old, hstep, hrest⟩ := Option.bind_eq_some_iff.mp h
    obtain ⟨part, hplace, hjson⟩ := ih (fresh + 1) hrest
    refine ⟨refilled fresh (some x) step part, place_cons_eq_ok_iff.mpr ?_, toJson_refilled hstep hjson⟩
    refine ⟨obstacle?_of_step? hstep, part, ?_, rfl⟩
    rw [Option.bind_some, hstep, hplace]

/-! ### Replacing twice -/

theorem exists_place_place (fresh' fresh'' : Nat) (second : Shared)
    (h : place fresh path current first = .ok new) :
    ∃ twice direct, place fresh' path (some new) second = .ok twice ∧
      place fresh'' path current second = .ok direct ∧ twice.toJson = direct.toJson := by
  induction path generalizing fresh fresh' fresh'' current new with
  | nil => exact ⟨second, second, rfl, rfl, rfl⟩
  | cons step rest ih =>
    obtain ⟨hstep, part, hpart, rfl⟩ := place_cons_eq_ok_iff.mp h
    obtain ⟨twice, direct, htwice, hdirect, hjson⟩ := ih (fresh' + 1) (fresh'' + 1) hpart
    refine ⟨_, _, place_cons_eq_ok_iff.mpr ⟨obstacle?_refilled .., twice, ?_, rfl⟩,
      place_cons_eq_ok_iff.mpr ⟨hstep, direct, hdirect, rfl⟩, toJson_refilled_refilled _ _ _ hjson⟩
    rw [Option.bind_some, step?_refilled, htwice]

/-! ### What lies off the path -/

/-- The second path ends at one of the nulls that a replacement at the first one puts behind the elements
of an array, which may be one that it makes. -/
def Padded (current : Option Shared) (path q : Path) : Prop :=
  ∃ before step rest other, path = before ++ step :: rest ∧ q = before ++ [other] ∧
    Pads (current.bind (·.at? before)) step other

theorem Padded.cons {step : Step} (h : Padded (current.bind (·.step? step)) path q) :
    Padded current (step :: path) (step :: q) := by
  obtain ⟨before, step', rest, other, rfl, rfl, hpads⟩ := h
  exact ⟨step :: before, step', rest, other, rfl, rfl, bind_at?_cons current step before ▸ hpads⟩

theorem Padded.missing (h : Padded current path q) : current.bind (·.at? q) = none := by
  obtain ⟨before, step, rest, other, rfl, rfl, hpads⟩ := h
  have hlast : ∀ y : Shared, y.at? [other] = y.step? other := fun y => Option.bind_fun_some _
  have hmissing := hpads.missing
  rw [Option.bind_assoc] at hmissing
  simpa only [at?_append, hlast] using hmissing

/-- At a path that parts from its own, a replacement changes nothing; all it can add are nulls. -/
theorem at?_place_of_diverges (h : place fresh path current value = .ok new)
    (hq : path.Diverges q) :
    new.at? q = current.bind (·.at? q) ∨ Padded current path q ∧ new.at? q = some .null := by
  induction path generalizing fresh current new q with
  | nil => exact absurd hq (Path.not_diverges_nil q)
  | cons step rest ih =>
    obtain ⟨hstep, part, hpart, rfl⟩ := place_cons_eq_ok_iff.mp h
    cases q with
    | nil => exact absurd hq (Path.not_diverges_nil_right _)
    | cons other q =>
      rw [at?, bind_at?_cons]
      by_cases hother : other = step
      · -- the paths part further down, below what both lead to
        subst hother
        rw [step?_refilled, Option.bind_some]
        refine (ih hpart (Path.diverges_cons.mp hq rfl)).imp_right ?_
        rintro ⟨hpadded, hnull⟩
        exact ⟨hpadded.cons, hnull⟩
      · -- the paths part here
        rcases step?_refilled_of_ne hstep hother with hsame | ⟨hpads, hnull⟩
        · exact .inl (by rw [hsame])
        · rw [hnull, hpads.missing]
          cases q with
          | nil => exact .inr ⟨⟨[], step, rest, other, rfl, rfl, by simpa [at?] using hpads⟩, rfl⟩
          | cons next q => exact .inl (by cases next <;> rfl)

end Shared

namespace Accessor

open Shared

variable {a b : Accessor} {root value new part : Shared}

theorem get?_of_set (h : a.set root value = .ok new) : a.get? new = some value := at?_place h

/-- What was there at a path that parts from the accessor's own stays there. -/
theorem get?_of_set_of_diverges (h : a.set root value = .ok new) (hdiverges : a.path.Diverges b.path)
    (hpart : b.get? root = some part) : b.get? new = some part := by
  rcases at?_place_of_diverges h hdiverges with hsame | ⟨hpadded, -⟩
  · exact hsame.trans hpart
  · exact absurd (hpadded.missing.symm.trans hpart) nofun

/-- Reading and replacing obey the laws of a lens, up to the numbers of the containers made anew: what was
put is read, putting what is there changes nothing, a second replacement counts alone, and at a path that
parts from the accessor's own nothing changes but for nulls put behind a short array. -/
theorem set_lawful (a : Accessor) (root : Shared) :
    (∀ value new, a.set root value = .ok new → a.get? new = some value) ∧
      (∀ value, a.get? root = some value →
        ∃ new, a.set root value = .ok new ∧ new.toJson = root.toJson) ∧
      (∀ first second new, a.set root first = .ok new →
        ∃ twice direct, a.set new second = .ok twice ∧ a.set root second = .ok direct ∧
          twice.toJson = direct.toJson) ∧
      ∀ (b : Accessor) (value new : Shared), a.set root value = .ok new → a.path.Diverges b.path →
        (∀ part, b.get? root = some part → b.get? new = some part) ∧
          (b.get? root = none → b.get? new = none ∨
            b.get? new = some .null ∧ Padded (some root) a.path b.path) := by
  refine ⟨fun value new => get?_of_set, fun value => exists_place_of_at? _,
    fun first second new => exists_place_place _ _ second, ?_⟩
  intro b value new hset hdiverges
  refine ⟨fun part => get?_of_set_of_diverges hset hdiverges, fun hnone => ?_⟩
  rcases at?_place_of_diverges hset hdiverges with hsame | ⟨hpadded, hnull⟩
  · exact .inl (hsame.trans hnone)
  · exact .inr ⟨hnull, hpadded⟩

/-- A value with a short list beside an object. -/
def shelf : Shared :=
  .object 0 [("list", .array 1 [.bool true]), ("owner", .object 2 [("name", .string "n")])]

/-- The accessor of a name within the third element of the list. -/
def slot : Accessor := { path := [.key "list", .index 2, .key "name"] }

theorem set_slot : ∃ new, slot.set shelf (.string "x") = .ok new ∧
    slot.get? new = some (.string "x") ∧
    (∃ same, slot.set new (.string "x") = .ok same ∧ same.toJson = new.toJson) ∧
    (∃ twice direct, slot.set new (.string "y") = .ok twice ∧
      slot.set shelf (.string "y") = .ok direct ∧ twice.toJson = direct.toJson) ∧
    ({ path := [.key "owner", .key "name"] } : Accessor).get? new = some (.string "n") ∧
    ({ path := [.key "list", .index 1] } : Accessor).get? new = some .null := by
  obtain ⟨hput, _, htwice, hframe⟩ := set_lawful slot shelf
  refine ⟨_, rfl, hput _ _ rfl, ?_, htwice (.string "x") (.string "y") _ rfl, ?_, ?_⟩
  · exact (set_lawful slot _).2.1 _ (hput (.string "x") _ rfl)
  · exact (hframe _ (.string "x") _ rfl (by decide)).1 _ rfl
  · refine ((hframe _ (.string "x") _ rfl (by decide)).2 rfl).elim (fun h => ?_) And.left
    cases h

end Accessor

end DataSchema
