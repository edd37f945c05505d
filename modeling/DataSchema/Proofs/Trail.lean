import DataSchema.Proofs.Inlining
import Mathlib.Data.List.ProdSigma
import Mathlib.Data.List.Perm.Subperm

/-!
Why following references comes to an end.

Every reference that is followed stands in the document given or in a registered one, so that only so many
keys can be on a trail (`Registry.trailKeys`), and no trail has a key twice. The bound on the steps leaves
room for all of them: with any greater bound the result is the same (`rebuild_of_stepBound_le`).
-/

namespace DataSchema

namespace Registry

variable {r : Registry} {root current d : Document} {text : String} {value : Json}

/-! ### What is followed where -/

/-- The document is the one given, or a registered one under its name. -/
def Known (r : Registry) (root d : Document) : Prop :=
  d = root ∨ ∃ name whole, r.get? name = some whole ∧ d = ⟨some name, whole⟩

theorem Known.registered (h : r.Known root d) (hroot : r.Registered root) : r.Registered d := by
  rcases h with rfl | ⟨name, whole, hget, rfl⟩
  · exact hroot
  · rintro _ ⟨rfl⟩
    exact hget

theorem LeadsTo.known (h : r.LeadsTo current text d value) (hcurrent : r.Known root current) :
    r.Known root d := by
  cases h with
  | here _ _ => exact hcurrent
  | named _ hget => exact .inr ⟨_, _, hget, rfl⟩
  | within _ _ _ hget _ => exact .inr ⟨_, _, hget, rfl⟩

theorem LeadsTo.lookup (h : r.LeadsTo current text d value) :
    ∃ pointer, Pointer.lookup? d.value pointer = some value := by
  cases h with
  | here _ hlookup => exact ⟨_, hlookup⟩
  | named _ _ => exact ⟨"", rfl⟩
  | within _ _ _ _ hlookup => exact ⟨_, hlookup⟩

theorem references_of_step? {whole : Json} {token : String}
    (h : Pointer.step? whole token = some value) : references value ⊆ references whole := by
  cases whole with
  | object ms => exact references_member_subset (Entries.mem_of_get? h)
  | array xs =>
    obtain ⟨i, _, hi⟩ := Option.bind_eq_some_iff.mp h
    exact references_item_subset (List.mem_of_getElem? hi)
  | _ => cases h

theorem references_of_resolve? : ∀ {tokens : List String} {whole : Json},
    Pointer.resolve? whole tokens = some value → references value ⊆ references whole
  | [], _, h => by
    cases h
    exact List.Subset.refl _
  | _ :: _, _, h => by
    obtain ⟨next, hstep, hrest⟩ := Option.bind_eq_some_iff.mp h
    exact List.Subset.trans (references_of_resolve? hrest) (references_of_step? hstep)

/-- The texts of all references that can be followed from a document. -/
def texts (r : Registry) (document : Json) : List String :=
  references document ++ memberReferences r.documents

theorem Known.references_subset (h : r.Known root d) : references d.value ⊆ r.texts root.value := by
  rcases h with rfl | ⟨name, whole, hget, rfl⟩
  · exact List.subset_append_left _ _
  · intro text htext
    exact List.mem_append_right _ (mem_memberReferences.mpr ⟨_, Entries.mem_of_get? hget, htext⟩)

theorem LeadsTo.references_subset (h : r.LeadsTo current text d value)
    (hcurrent : r.Known root current) : references value ⊆ r.texts root.value := by
  obtain ⟨pointer, hlookup⟩ := h.lookup
  obtain ⟨tokens, _, hresolve⟩ := Option.bind_eq_some_iff.mp hlookup
  exact List.Subset.trans (references_of_resolve? hresolve) (h.known hcurrent).references_subset

/-! ### Room on the trail -/

/-- All keys that can be on a trail from a document: of each text, read in each document. -/
def trailKeys (r : Registry) (document : Json) : List String :=
  (r.texts document ×ˢ (none :: (Entries.keys r.documents).map some)).map fun e =>
    (Reference.ofText e.1 e.2).trailKey

theorem length_trailKeys (r : Registry) (document : Json) :
    (r.trailKeys document).length + 1 = r.stepBound document := by
  simp [trailKeys, stepBound, texts, List.length_product, Entries.keys, size]

theorem trailKey_mem (hcurrent : r.Registered current) (htext : text ∈ r.texts root.value) :
    (Reference.ofText text current.name).trailKey ∈ r.trailKeys root.value := by
  refine List.mem_map.mpr ⟨(text, current.name), List.mem_product.mpr ⟨htext, ?_⟩, rfl⟩
  cases hname : current.name with
  | none => exact List.mem_cons_self
  | some name =>
    have hget := Entries.mem_of_get? (hcurrent name hname)
    exact List.mem_cons_of_mem _ (List.mem_map_of_mem (List.mem_map_of_mem (f := Prod.fst) hget))

/-- The trail has no key twice, and there are steps left for all keys that are not on it. -/
structure Room (r : Registry) (document : Json) (steps : Nat) (trail : List String) : Prop where
  nodup : trail.Nodup
  listed : trail ⊆ r.trailKeys document
  enough : (r.trailKeys document).length < steps + trail.length

namespace Room

variable {document : Json} {steps : Nat} {trail : List String} {key : String}

theorem start (r : Registry) (document : Json) : Room r document (r.stepBound document) [] where
  nodup := List.nodup_nil
  listed := List.nil_subset _
  enough := by rw [← length_trailKeys]; simp

theorem exists_step (h : Room r document steps trail) : ∃ left, steps = left + 1 := by
  have hle := (List.subperm_of_subset h.nodup h.listed).length_le
  have henough := h.enough
  exact ⟨steps - 1, by omega⟩

theorem push (h : Room r document (steps + 1) trail) (hnew : key ∉ trail)
    (hlisted : key ∈ r.trailKeys document) : Room r document steps (key :: trail) where
  nodup := List.nodup_cons.mpr ⟨hnew, h.nodup⟩
  listed := List.cons_subset.mpr ⟨hlisted, h.listed⟩
  enough := by
    have henough := h.enough
    rw [List.length_cons]
    omega

end Room

/-! ### The bound on the steps -/

theorem follow_succ (r : Registry) (steps : Nat) (trail : List String) (current : Document)
    (text : String) : r.follow (steps + 1) trail current text =
      match r.target? current text with
      | none => .error (.unresolved text)
      | some (d, value) =>
        if (Reference.ofText text current.name).trailKey ∈ trail then .error (.cycle text)
        else rebuild
          (r.follow steps ((Reference.ofText text current.name).trailKey :: trail) d) value := by
  rw [follow, target?, locate?]
  cases r.targetDocument? current (Reference.ofText text current.name) with
  | none => rfl
  | some target =>
    cases hlookup : Pointer.lookup? target.value (Reference.ofText text current.name).pointer with
    | none => simp [hlookup]
    | some value => simp [hlookup]

/-- Where there is room, more steps change nothing. -/
theorem follow_eq_of_room (hroot : r.Registered root) : ∀ {steps more : Nat} {trail : List String}
    {current : Document} {text : String}, Room r root.value steps trail → steps ≤ more →
      r.Known root current → text ∈ r.texts root.value →
      r.follow more trail current text = r.follow steps trail current text
  | 0, _, _, _, _, hroom, _, _, _ => nomatch hroom.exists_step
  | steps + 1, 0, _, _, _, _, hle, _, _ => nomatch hle
  | steps + 1, more + 1, trail, current, text, hroom, hle, hcurrent, htext => by
    have hregistered := hcurrent.registered hroot
    rw [follow_succ, follow_succ]
    cases htarget : r.target? current text with
    | none => rfl
    | some target =>
      obtain ⟨d, value⟩ := target
      have hleads := (target?_eq_some_iff hregistered).mp htarget
      dsimp only
      split
      · rfl
      · next hnew =>
        refine rebuild_congr fun other hother => ?_
        exact follow_eq_of_room hroot (hroom.push hnew (trailKey_mem hregistered htext))
          (Nat.le_of_succ_le_succ hle) (hleads.known hcurrent)
          (hleads.references_subset hcurrent hother)

/-- The bound on the steps is never felt. -/
theorem rebuild_of_stepBound_le (hroot : r.Registered root) {steps : Nat}
    (hle : r.stepBound root.value ≤ steps) :
    rebuild (r.follow steps [] root) root.value = r.inlineDocument root :=
  rebuild_congr fun _ htext => follow_eq_of_room hroot (Room.start r root.value) hle (.inl rfl)
    (List.mem_append_left _ htext)

end Registry

end DataSchema
