import DataSchema.Proofs.Results
import DataSchema.Proofs.Values
import DataSchema.Registry.Reference

/-!
Rebuilding a value around what stands in the place of its references.

A value is rebuilt exactly if each of its parts is that is not dropped, and then from what these become
(`rebuildItems_eq_ok_iff`, `rebuildMembers_eq_ok_iff`, `overlay_eq_ok_iff`). Only the texts of references
in the value are asked for (`rebuild_congr`); where there are none, only definitions are dropped
(`rebuild_of_refersNowhere`).
-/

namespace DataSchema

namespace Entries

variable {α β : Type}

/-- Puts the entries of the second list one after another into the first. -/
def putAll (entries others : List (String × α)) : List (String × α) :=
  others.foldl (fun acc e => put acc e.1 e.2) entries

theorem mapValues_congr {f g : α → β} {entries : List (String × α)}
    (h : ∀ e ∈ entries, f e.2 = g e.2) : mapValues f entries = mapValues g entries :=
  List.map_congr_left fun e he => by rw [h e he]

end Entries

namespace Registry

/-- The members that are not dropped. -/
def keptMembers (members : List (String × Json)) : List (String × Json) :=
  members.filter fun e => !isDefinitions e.1

/-- The members beside a reference that are not dropped. -/
def siblings (members : List (String × Json)) : List (String × Json) :=
  (keptMembers members).filter fun e => e.1 ≠ "$ref"

variable {follow other : String → Except RegistryError Json} {members : List (String × Json)}

theorem keptMembers_cons (key : String) (x : Json) (rest : List (String × Json)) :
    keptMembers ((key, x) :: rest) =
      if isDefinitions key = true then keptMembers rest else (key, x) :: keptMembers rest := by
  rw [keptMembers, List.filter_cons]
  cases isDefinitions key <;> rfl

theorem siblings_cons (key : String) (x : Json) (rest : List (String × Json)) :
    siblings ((key, x) :: rest) =
      if key = "$ref" ∨ isDefinitions key = true then siblings rest
      else (key, x) :: siblings rest := by
  rw [siblings, keptMembers_cons]
  by_cases hkey : key = "$ref"
  · subst hkey
    rfl
  · cases hdefinitions : isDefinitions key <;> simp [siblings, hkey]

/-! ### When a value is rebuilt -/

/-- What a value is rebuilt into, if it is. -/
def rebuilt (follow : String → Except RegistryError Json) (x : Json) : Json :=
  match rebuild follow x with
  | .ok y => y
  | .error _ => x

theorem rebuilt_eq {x y : Json} (h : rebuild follow x = .ok y) : rebuilt follow x = y := by
  rw [rebuilt, h]

theorem rebuild_scalar {x : Json} (h : x.isScalar = true) : rebuild follow x = .ok x := by
  cases x with
  | array xs => cases h
  | object ms => cases h
  | _ => rfl

theorem rebuildItems_eq_ok_iff : ∀ {xs ys : List Json}, rebuildItems follow xs = .ok ys ↔
    (∀ x ∈ xs, rebuild follow x = .ok (rebuilt follow x)) ∧ ys = xs.map (rebuilt follow)
  | [], ys => by simp [rebuildItems, eq_comm]
  | x :: rest, ys => by
    rw [rebuildItems, bind_eq_ok_iff, List.forall_mem_cons, List.map_cons]
    constructor
    · rintro ⟨y, hy, h⟩
      obtain ⟨zs, hzs, h⟩ := bind_eq_ok_iff.mp h
      obtain ⟨hrest, rfl⟩ := rebuildItems_eq_ok_iff.mp hzs
      cases h
      rw [rebuilt_eq hy]
      exact ⟨⟨hy, hrest⟩, rfl⟩
    · rintro ⟨⟨hx, hrest⟩, rfl⟩
      exact ⟨_, hx, bind_eq_ok_iff.mpr ⟨_, rebuildItems_eq_ok_iff.mpr ⟨hrest, rfl⟩, rfl⟩⟩

theorem rebuildMembers_eq_ok_iff : ∀ {ms ns : List (String × Json)},
    rebuildMembers follow ms = .ok ns ↔
      (∀ e ∈ keptMembers ms, rebuild follow e.2 = .ok (rebuilt follow e.2)) ∧
        ns = Entries.mapValues (rebuilt follow) (keptMembers ms)
  | [], ns => by simp [rebuildMembers, keptMembers, Entries.mapValues, eq_comm]
  | (key, x) :: rest, ns => by
    rw [rebuildMembers, keptMembers_cons]
    split
    · exact rebuildMembers_eq_ok_iff
    · rw [bind_eq_ok_iff, List.forall_mem_cons]
      constructor
      · rintro ⟨y, hy, h⟩
        obtain ⟨zs, hzs, h⟩ := bind_eq_ok_iff.mp h
        obtain ⟨hrest, rfl⟩ := rebuildMembers_eq_ok_iff.mp hzs
        cases h
        rw [← rebuilt_eq hy]
        exact ⟨⟨rebuilt_eq hy ▸ hy, hrest⟩, rfl⟩
      · rintro ⟨⟨hx, hrest⟩, rfl⟩
        exact ⟨_, hx, bind_eq_ok_iff.mpr ⟨_, rebuildMembers_eq_ok_iff.mpr ⟨hrest, rfl⟩, rfl⟩⟩

theorem overlay_eq_ok_iff : ∀ {ms out ns : List (String × Json)},
    overlay follow out ms = .ok ns ↔
      (∀ e ∈ siblings ms, rebuild follow e.2 = .ok (rebuilt follow e.2)) ∧
        ns = Entries.putAll out (Entries.mapValues (rebuilt follow) (siblings ms))
  | [], out, ns => by
    simp [overlay, siblings, keptMembers, Entries.mapValues, Entries.putAll, eq_comm]
  | (key, x) :: rest, out, ns => by
    rw [overlay, siblings_cons]
    split
    · exact overlay_eq_ok_iff
    · rw [bind_eq_ok_iff, List.forall_mem_cons]
      constructor
      · rintro ⟨y, hy, h⟩
        obtain ⟨hrest, rfl⟩ := overlay_eq_ok_iff.mp h
        rw [← rebuilt_eq hy]
        exact ⟨⟨rebuilt_eq hy ▸ hy, hrest⟩, rfl⟩
      · rintro ⟨⟨hx, hrest⟩, rfl⟩
        exact ⟨_, hx, overlay_eq_ok_iff.mpr ⟨hrest, rfl⟩⟩

theorem rebuildItems_of_forall {f : Json → Json} {xs : List Json}
    (h : ∀ x ∈ xs, rebuild follow x = .ok (f x)) : rebuildItems follow xs = .ok (xs.map f) :=
  rebuildItems_eq_ok_iff.mpr ⟨fun x hx => (rebuilt_eq (h x hx)).symm ▸ h x hx,
    List.map_congr_left fun x hx => (rebuilt_eq (h x hx)).symm⟩

theorem rebuildMembers_of_forall {f : Json → Json}
    (h : ∀ e ∈ keptMembers members, rebuild follow e.2 = .ok (f e.2)) :
    rebuildMembers follow members = .ok (Entries.mapValues f (keptMembers members)) :=
  rebuildMembers_eq_ok_iff.mpr ⟨fun e he => (rebuilt_eq (h e he)).symm ▸ h e he,
    Entries.mapValues_congr fun e he => (rebuilt_eq (h e he)).symm⟩

theorem overlay_of_forall {f : Json → Json} {out : List (String × Json)}
    (h : ∀ e ∈ siblings members, rebuild follow e.2 = .ok (f e.2)) :
    overlay follow out members =
      .ok (Entries.putAll out (Entries.mapValues f (siblings members))) :=
  overlay_eq_ok_iff.mpr ⟨fun e he => (rebuilt_eq (h e he)).symm ▸ h e he,
    congrArg (Entries.putAll out) (Entries.mapValues_congr fun e he => (rebuilt_eq (h e he)).symm)⟩

/-! ### What is asked for -/

theorem mem_itemReferences {text : String} {xs : List Json} :
    text ∈ itemReferences xs ↔ ∃ x ∈ xs, text ∈ references x := by
  induction xs with
  | nil => simp [itemReferences]
  | cons x rest ih =>
    rw [itemReferences, List.mem_append, ih]
    simp

theorem mem_memberReferences {text : String} {ms : List (String × Json)} :
    text ∈ memberReferences ms ↔ ∃ e ∈ ms, text ∈ references e.2 := by
  induction ms with
  | nil => simp [memberReferences]
  | cons e rest ih =>
    obtain ⟨key, x⟩ := e
    rw [memberReferences, List.mem_append, ih]
    simp

theorem references_item_subset {xs : List Json} {x : Json} (hx : x ∈ xs) :
    references x ⊆ references (.array xs) :=
  fun _ htext => mem_itemReferences.mpr ⟨x, hx, htext⟩

theorem references_member_subset {e : String × Json} (he : e ∈ members) :
    references e.2 ⊆ references (.object members) :=
  fun _ htext => List.mem_append_right _ (mem_memberReferences.mpr ⟨e, he, htext⟩)

theorem mem_references_of_referenceText? {text : String} (h : referenceText? members = some text) :
    text ∈ references (.object members) := by
  rw [references, h]
  exact List.mem_cons_self

theorem mem_of_mem_keptMembers {e : String × Json} (h : e ∈ keptMembers members) : e ∈ members :=
  (List.mem_filter.mp h).1

theorem mem_of_mem_siblings {e : String × Json} (h : e ∈ siblings members) : e ∈ members :=
  mem_of_mem_keptMembers (List.mem_filter.mp h).1

theorem rebuildItems_congr : ∀ {xs : List Json}, (∀ x ∈ xs, rebuild follow x = rebuild other x) →
    rebuildItems follow xs = rebuildItems other xs
  | [], _ => rfl
  | x :: rest, h => by
    rw [List.forall_mem_cons] at h
    rw [rebuildItems, rebuildItems, h.1, rebuildItems_congr h.2]

theorem rebuildMembers_congr : ∀ {ms : List (String × Json)},
    (∀ e ∈ ms, rebuild follow e.2 = rebuild other e.2) →
      rebuildMembers follow ms = rebuildMembers other ms
  | [], _ => rfl
  | (key, x) :: rest, h => by
    rw [List.forall_mem_cons] at h
    rw [rebuildMembers, rebuildMembers, h.1, rebuildMembers_congr h.2]

theorem overlay_congr : ∀ {ms : List (String × Json)} (out : List (String × Json)),
    (∀ e ∈ ms, rebuild follow e.2 = rebuild other e.2) →
      overlay follow out ms = overlay other out ms
  | [], _, _ => rfl
  | (key, x) :: rest, out, h => by
    rw [List.forall_mem_cons] at h
    rw [overlay, overlay, overlay_congr out h.2, h.1]
    simp only [overlay_congr _ h.2]

/-- A value is rebuilt alike where its references are replaced alike. -/
theorem rebuild_congr {x : Json} (h : ∀ text ∈ references x, follow text = other text) :
    rebuild follow x = rebuild other x := by
  induction x using Json.induction with
  | scalar x hx => rw [rebuild_scalar hx, rebuild_scalar hx]
  | array xs ih =>
    rw [rebuild, rebuild, rebuildItems_congr fun x hx => ih x hx fun text htext =>
      h text (references_item_subset hx htext)]
  | object ms ih =>
    have hmembers : ∀ e ∈ ms, rebuild follow e.2 = rebuild other e.2 := fun e he =>
      ih e he fun text htext => h text (references_member_subset he htext)
    rw [rebuild, rebuild]
    cases htext : referenceText? ms with
    | none => simp only [rebuildMembers_congr hmembers]
    | some text =>
      have hsame := h text (mem_references_of_referenceText? htext)
      simp only [hsame, overlay_congr _ hmembers]

/-! ### Without references -/

/-- Is there no reference among the members? -/
def refersNowhere (members : List (String × Json)) : Bool := members.all fun e => e.1 != "$ref"

/-- Are there no definitions among the members? -/
def definesNothing (members : List (String × Json)) : Bool := members.all fun e => !isDefinitions e.1

mutual

/-- The value without the definitions in any of its objects. -/
def withoutDefinitions : Json → Json
  | .array xs => .array (itemsWithoutDefinitions xs)
  | .object ms => .object (membersWithoutDefinitions ms)
  | x => x

def itemsWithoutDefinitions : List Json → List Json
  | [] => []
  | x :: rest => withoutDefinitions x :: itemsWithoutDefinitions rest

def membersWithoutDefinitions : List (String × Json) → List (String × Json)
  | [] => []
  | (key, x) :: rest =>
    if isDefinitions key then membersWithoutDefinitions rest
    else (key, withoutDefinitions x) :: membersWithoutDefinitions rest

end

theorem referenceText?_of_refersNowhere (h : refersNowhere members = true) :
    referenceText? members = none := by
  have hget : Entries.get? members "$ref" = none := by
    rw [Entries.get?_eq_none_iff]
    intro hkey
    obtain ⟨e, he, hkey⟩ := List.mem_map.mp hkey
    simpa [hkey] using List.all_eq_true.mp h e he
  rw [referenceText?, hget]

mutual

/-- Without references there is nothing to follow, and only definitions are dropped. -/
theorem rebuild_of_refersNowhere (follow : String → Except RegistryError Json) : ∀ {x : Json},
    x.everyObject refersNowhere = true → rebuild follow x = .ok (withoutDefinitions x)
  | .null, _ => rfl
  | .bool _, _ => rfl
  | .number _, _ => rfl
  | .string _, _ => rfl
  | .array xs, h => by
    rw [rebuild, rebuildItems_of_refersNowhere follow h, withoutDefinitions]
    rfl
  | .object ms, h => by
    obtain ⟨hms, hmembers⟩ := (Bool.and_eq_true _ _).mp h
    rw [rebuild, referenceText?_of_refersNowhere hms]
    dsimp only
    rw [rebuildMembers_of_refersNowhere follow hmembers, withoutDefinitions]
    rfl

theorem rebuildItems_of_refersNowhere (follow : String → Except RegistryError Json) :
    ∀ {xs : List Json}, Json.everyItem refersNowhere xs = true →
      rebuildItems follow xs = .ok (itemsWithoutDefinitions xs)
  | [], _ => rfl
  | x :: rest, h => by
    obtain ⟨hx, hrest⟩ := (Bool.and_eq_true _ _).mp h
    rw [rebuildItems, rebuild_of_refersNowhere follow hx, rebuildItems_of_refersNowhere follow hrest,
      itemsWithoutDefinitions]
    rfl

theorem rebuildMembers_of_refersNowhere (follow : String → Except RegistryError Json) :
    ∀ {ms : List (String × Json)}, Json.everyMember refersNowhere ms = true →
      rebuildMembers follow ms = .ok (membersWithoutDefinitions ms)
  | [], _ => rfl
  | (key, x) :: rest, h => by
    obtain ⟨hx, hrest⟩ := (Bool.and_eq_true _ _).mp h
    rw [rebuildMembers, membersWithoutDefinitions, rebuild_of_refersNowhere follow hx,
      rebuildMembers_of_refersNowhere follow hrest]
    split <;> rfl

end

mutual

/-- Where there are no definitions, none are dropped. -/
theorem withoutDefinitions_eq_self : ∀ {x : Json},
    x.everyObject definesNothing = true → withoutDefinitions x = x
  | .null, _ => rfl
  | .bool _, _ => rfl
  | .number _, _ => rfl
  | .string _, _ => rfl
  | .array xs, h => by rw [withoutDefinitions, itemsWithoutDefinitions_eq_self h]
  | .object ms, h => by
    obtain ⟨hms, hmembers⟩ := (Bool.and_eq_true _ _).mp h
    rw [withoutDefinitions, membersWithoutDefinitions_eq_self hms hmembers]

theorem itemsWithoutDefinitions_eq_self : ∀ {xs : List Json},
    Json.everyItem definesNothing xs = true → itemsWithoutDefinitions xs = xs
  | [], _ => rfl
  | x :: rest, h => by
    obtain ⟨hx, hrest⟩ := (Bool.and_eq_true _ _).mp h
    rw [itemsWithoutDefinitions, withoutDefinitions_eq_self hx, itemsWithoutDefinitions_eq_self hrest]

theorem membersWithoutDefinitions_eq_self : ∀ {ms : List (String × Json)},
    definesNothing ms = true → Json.everyMember definesNothing ms = true →
      membersWithoutDefinitions ms = ms
  | [], _, _ => rfl
  | (key, x) :: rest, hms, h => by
    obtain ⟨hkey, hkeys⟩ := (Bool.and_eq_true _ _).mp hms
    obtain ⟨hx, hrest⟩ := (Bool.and_eq_true _ _).mp h
    rw [membersWithoutDefinitions, withoutDefinitions_eq_self hx,
      membersWithoutDefinitions_eq_self hkeys hrest]
    simpa using hkey

end

end Registry

end DataSchema
