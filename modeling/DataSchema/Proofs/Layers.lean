import DataSchema.Proofs.Lens

/-!
Layers of mappings on an accessor.

What is read goes through the layers from the innermost one out, and what is written goes through them from
the outermost one in, each layer being shown the old value as the layers within it read it (`readThrough`,
`writtenThrough`). A stack of layers does just that (`Accessor.getThrough?_eq`,
`Accessor.setThrough_eq`), so that layers of which each reads back what it writes do so together, however
many there are (`Accessor.setThrough_lawful`).
-/

namespace DataSchema

namespace Mapping

variable {R : Shared → Shared → Prop} {layers : List Mapping} {value written : Shared}
  {prior : Option Shared}

/-- The mapping writes, and reads back whatever it writes. -/
def Lawful (m : Mapping) : Prop :=
  ∃ write, m.set = some write ∧ ∀ x prior, m.get (write x prior) = x

/-- The mapping reads back what it writes up to a relation, which reading respects. -/
structure LawfulUpTo (R : Shared → Shared → Prop) (m : Mapping) : Prop where
  readsBack : ∃ write, m.set = some write ∧ ∀ x prior, R (m.get (write x prior)) x
  respects : ∀ x y, R x y → R (m.get x) (m.get y)

theorem Lawful.upTo {m : Mapping} (h : m.Lawful) : m.LawfulUpTo Eq := ⟨h, fun _ _ => congrArg m.get⟩

/-! ### Layers, the innermost first -/

/-- A value as the layers read it. -/
def readThrough : List Mapping → Shared → Shared
  | [], x => x
  | m :: outer, x => readThrough outer (m.get x)

/-- What the layers write for a value where there is a prior one, if all of them write. -/
def writtenThrough : List Mapping → Shared → Option Shared → Option Shared
  | [], value, _ => some value
  | m :: outer, value, prior => do
    let write ← m.set
    let value ← writtenThrough outer value (prior.map m.get)
    return write value prior

theorem writtenThrough_cons (m : Mapping) (outer : List Mapping) (value : Shared)
    (prior : Option Shared) :
    writtenThrough (m :: outer) value prior =
      m.set.bind fun write => (writtenThrough outer value (prior.map m.get)).map (write · prior) := by
  rw [writtenThrough]
  cases m.set with
  | none => rfl
  | some write => cases writtenThrough outer value (prior.map m.get) <;> rfl

theorem writtenThrough_over (outer inner : Mapping) (layers : List Mapping) (value : Shared)
    (prior : Option Shared) :
    writtenThrough (outer.over inner :: layers) value prior =
      writtenThrough (inner :: outer :: layers) value prior := by
  have hprior : (prior.map inner.get).map outer.get = prior.map (outer.over inner).get := by
    rw [Option.map_map]
    rfl
  simp only [writtenThrough_cons, hprior]
  cases hinner : inner.set <;> cases houter : outer.set <;>
    simp [Mapping.over, hinner, houter, Function.comp_def]

theorem writtenThrough_eq_none_iff :
    writtenThrough layers value prior = none ↔ ∃ m ∈ layers, m.set = none := by
  induction layers generalizing prior with
  | nil => simp [writtenThrough]
  | cons m outer ih =>
    rw [writtenThrough_cons]
    cases hset : m.set <;> simp [hset, ih]

/-- Reading respects the relation through any number of layers that do. -/
theorem readThrough_respects (h : ∀ m ∈ layers, m.LawfulUpTo R) {x y : Shared} (hxy : R x y) :
    R (readThrough layers x) (readThrough layers y) := by
  induction layers generalizing x y with
  | nil => exact hxy
  | cons m outer ih =>
    rw [List.forall_mem_cons] at h
    exact ih h.2 (h.1.respects x y hxy)

/-- What the layers write reads back through them. The innermost layer brings back what the others wrote,
and they bring back the value. -/
theorem readThrough_writtenThrough (hR : Equivalence R) (h : ∀ m ∈ layers, m.LawfulUpTo R)
    (hwritten : writtenThrough layers value prior = some written) :
    R (readThrough layers written) value := by
  induction layers generalizing prior written with
  | nil =>
    cases hwritten
    exact hR.refl value
  | cons m outer ih =>
    rw [List.forall_mem_cons] at h
    obtain ⟨write, hwrite, hback⟩ := h.1.readsBack
    rw [writtenThrough_cons, hwrite, Option.bind_some] at hwritten
    obtain ⟨inside, hinside, rfl⟩ := Option.map_eq_some_iff.mp hwritten
    exact hR.trans (readThrough_respects h.2 (hback inside prior)) (ih h.2 hinside)

end Mapping

namespace Accessor

open Mapping

/-- The accessor under a first layer and others around it. -/
def layered (a : Accessor) (first : Mapping) (others : List Mapping) : Transformed :=
  others.foldl Transformed.transform (a.transform first)

/-- Reads through the accessor, which may be under layers. -/
def getThrough? (a : Accessor) : List Mapping → Shared → Option Shared
  | [], root => a.get? root
  | first :: others, root => (a.layered first others).get? root

/-- Writes through the accessor, which may be under layers. -/
def setThrough (a : Accessor) : List Mapping → Shared → Shared → Except AccessError Shared
  | [], root, value => a.set root value
  | first :: others, root, value => (a.layered first others).set root value

/-! ### Stacks as layers -/

theorem layered_cons (a : Accessor) (first second : Mapping) (others : List Mapping) :
    a.layered first (second :: others) = a.layered (second.over first) others := rfl

theorem getThrough?_eq (a : Accessor) (layers : List Mapping) (root : Shared) :
    a.getThrough? layers root = (a.get? root).map (readThrough layers) := by
  cases layers with
  | nil => exact (Option.map_id_apply ..).symm
  | cons first others =>
    rw [getThrough?]
    induction others generalizing first with
    | nil => rfl
    | cons second others ih =>
      rw [layered_cons, ih]
      rfl

theorem setThrough_eq (a : Accessor) (layers : List Mapping) (root value : Shared) :
    a.setThrough layers root value =
      match writtenThrough layers value (a.get? root) with
      | some written => a.set root written
      | none => .error (.noInverse a.path) := by
  cases layers with
  | nil => rfl
  | cons first others =>
    rw [setThrough]
    induction others generalizing first with
    | nil =>
      rw [layered, List.foldl_nil, Transformed.set, transform, writtenThrough]
      cases first.set <;> rfl
    | cons second others ih => rw [layered_cons, ih, writtenThrough_over]

/-! ### The laws -/

theorem setThrough_eq_ok_iff {a : Accessor} {layers : List Mapping} {root value new : Shared} :
    a.setThrough layers root value = .ok new ↔
      ∃ written, writtenThrough layers value (a.get? root) = some written ∧
        a.set root written = .ok new := by
  rw [setThrough_eq]
  cases writtenThrough layers value (a.get? root) <;> simp

theorem getThrough?_of_setThrough {R : Shared → Shared → Prop} (hR : Equivalence R) {a : Accessor}
    {layers : List Mapping} (h : ∀ m ∈ layers, m.LawfulUpTo R) {root value new : Shared}
    (hset : a.setThrough layers root value = .ok new) :
    ∃ read, a.getThrough? layers new = some read ∧ R read value := by
  obtain ⟨written, hwritten, hput⟩ := setThrough_eq_ok_iff.mp hset
  refine ⟨readThrough layers written, ?_, readThrough_writtenThrough hR h hwritten⟩
  rw [getThrough?_eq, get?_of_set hput, Option.map_some]

/-- Any number of layers on an accessor is lawful together. If each layer reads back what it writes, then
what is written through all of them is read back through all of them; so it is up to any equivalence that
each layer's reading respects and up to which each reads back. Nothing that was there at a path that parts
from the accessor's own changes. If all layers write, a value is refused only as the accessor itself refuses
one; if some layer does not, every value is refused, and the accessor's path is named. -/
theorem setThrough_lawful (a : Accessor) (layers : List Mapping) (root value : Shared) :
    ((∀ m ∈ layers, m.Lawful) → ∀ new, a.setThrough layers root value = .ok new →
      a.getThrough? layers new = some value) ∧
    (∀ R, Equivalence R → (∀ m ∈ layers, m.LawfulUpTo R) → ∀ new,
      a.setThrough layers root value = .ok new →
        ∃ read, a.getThrough? layers new = some read ∧ R read value) ∧
    (∀ new, a.setThrough layers root value = .ok new → ∀ b : Accessor, a.path.Diverges b.path →
      ∀ part, b.get? root = some part → b.get? new = some part) ∧
    ((∀ m ∈ layers, m.set.isSome = true) →
      ∃ written, a.setThrough layers root value = a.set root written) ∧
    ((∃ m ∈ layers, m.set = none) → ∃ e, a.setThrough layers root value = .error e ∧
      e = .noInverse a.path ∧
      e.message = "cannot set '" ++ a.path.render ++ "': transform has no inverse mapping") := by
  refine ⟨fun h new hset => ?_, fun R hR h new => getThrough?_of_setThrough hR h,
    fun new hset b hdiverges part => ?_, fun h => ?_, fun h => ⟨.noInverse a.path, ?_, rfl, rfl⟩⟩
  · obtain ⟨_, hread, rfl⟩ := getThrough?_of_setThrough ⟨fun _ => rfl, Eq.symm, Eq.trans⟩
      (fun m hm => (h m hm).upTo) hset
    exact hread
  · obtain ⟨written, _, hput⟩ := setThrough_eq_ok_iff.mp hset
    exact get?_of_set_of_diverges hput hdiverges
  · cases hwritten : writtenThrough layers value (a.get? root) with
    | none =>
      obtain ⟨m, hm, hset⟩ := writtenThrough_eq_none_iff.mp hwritten
      have hsome := h m hm
      rw [hset] at hsome
      cases hsome
    | some written => exact ⟨written, by rw [setThrough_eq, hwritten]⟩
  · rw [setThrough_eq, writtenThrough_eq_none_iff.mpr h]

/-- Keeps a value as the only element of an array. -/
def boxed : Mapping where
  get
    | .array _ [x] => x
    | x => x
  set := some fun x _ => .array 0 [x]

/-- Keeps a value beside the one before it. -/
def versioned : Mapping where
  get x := (x.member? "new").getD x
  set := some fun x prior => .object 0 [("new", x), ("old", prior.getD .null)]

/-- Reads arrays as made anew, and keeps any value as it is. -/
def renumbered : Mapping where
  get
    | .array _ items => .array 7 items
    | x => x
  set := some fun x _ => x

theorem lawfulUpTo_renumbered : renumbered.LawfulUpTo fun x y => x.toJson = y.toJson := by
  have hjson : ∀ x, (renumbered.get x).toJson = x.toJson := fun x => by cases x <;> rfl
  exact ⟨⟨_, rfl, fun x _ => hjson x⟩, fun x y h => (hjson x).trans (h.trans (hjson y).symm)⟩

/-- A flag in a version in a box is put into the slot of the shelf and read from there, while the name of
the owner stays. Arrays that are made anew on reading are read back as equal ones. A layer that only reads
lets nothing be written. -/
theorem setThrough_slot : ∃ new, slot.setThrough [boxed, versioned] shelf (.bool true) = .ok new ∧
    slot.getThrough? [boxed, versioned] new = some (.bool true) ∧
    ({ path := [.key "owner", .key "name"] } : Accessor).get? new = some (.string "n") ∧
    (∃ other read, slot.setThrough [renumbered, renumbered] shelf (.array 0 []) = .ok other ∧
      slot.getThrough? [renumbered, renumbered] other = some read ∧ read.toJson = .array []) ∧
    (∃ written, slot.setThrough [boxed, versioned] shelf (.bool true) = slot.set shelf written) ∧
    ∃ e, slot.setThrough [boxed, { get := id, set := none }] shelf .null = .error e ∧
      e = .noInverse slot.path ∧
      e.message = "cannot set '" ++ slot.path.render ++ "': transform has no inverse mapping" := by
  have hboxed : boxed.Lawful := ⟨_, rfl, fun _ _ => rfl⟩
  have hversioned : versioned.Lawful := ⟨_, rfl, fun _ _ => rfl⟩
  obtain ⟨hread, _, hframe, hrefused, _⟩ :=
    setThrough_lawful slot [boxed, versioned] shelf (.bool true)
  refine ⟨_, rfl, hread ?_ _ rfl, hframe _ rfl _ (by decide) _ rfl, ?_, hrefused ?_, ?_⟩
  · exact List.forall_mem_cons.mpr ⟨hboxed, List.forall_mem_singleton.mpr hversioned⟩
  · obtain ⟨_, hback, _⟩ := setThrough_lawful slot [renumbered, renumbered] shelf (.array 0 [])
    obtain ⟨read, hread, hjson⟩ := hback (fun x y => x.toJson = y.toJson)
      ⟨fun _ => rfl, Eq.symm, Eq.trans⟩ (List.forall_mem_cons.mpr
        ⟨lawfulUpTo_renumbered, List.forall_mem_singleton.mpr lawfulUpTo_renumbered⟩) _ rfl
    exact ⟨_, read, rfl, hread, hjson⟩
  · exact List.forall_mem_cons.mpr ⟨rfl, List.forall_mem_singleton.mpr rfl⟩
  · exact (setThrough_lawful slot _ shelf .null).2.2.2.2
      ⟨_, List.mem_cons_of_mem _ List.mem_cons_self, rfl⟩

end Accessor

end DataSchema
