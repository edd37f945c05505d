import DataSchema.Proofs.Lens

/-!
A replacement makes anew what lies on the path, and nothing else.

Whether two containers are one shows in their numbers. The containers on the path are numbered from the
supply on, one after another; all other containers of the new version are there in the old one or in the
value that was put, and keep their numbers (`Shared.number_place`). As the supply starts beyond every
number in these two, the containers that are made anew are told apart from all others.
-/

namespace DataSchema

namespace Shared

/-! ### Numbers -/

/-- The number of a container. -/
def number? : Shared → Option Nat
  | .array id _ => some id
  | .object id _ => some id
  | _ => none

def isContainer (x : Shared) : Bool := x.number?.isSome

variable {fresh n : Nat} {current : Option Shared} {step : Step} {path q before : Path}
  {x y part value new : Shared}

theorem number?_of_sharesWith (h : x.sharesWith y = true) : x.number? = y.number? := by
  cases x <;> cases y <;> simp_all [sharesWith, number?]

theorem sharesWith_self (h : x.isContainer = true) : x.sharesWith x = true := by
  cases x <;> simp_all [sharesWith, isContainer, number?]

theorem number?_lt_bound (h : x.number? = some n) : n < x.bound := by
  cases x with
  | array id items | object id members =>
    cases h
    rw [bound]
    omega
  | _ => cases h

theorem bound_le_itemsBound : ∀ {items : List Shared}, x ∈ items → x.bound ≤ itemsBound items
  | y :: rest, h => by
    rw [itemsBound]
    rcases List.mem_cons.mp h with rfl | hrest
    · omega
    · have := bound_le_itemsBound hrest
      omega

theorem bound_le_membersBound {name : String} : ∀ {members : List (String × Shared)},
    (name, x) ∈ members → x.bound ≤ membersBound members
  | (_, y) :: rest, h => by
    rw [membersBound]
    rcases List.mem_cons.mp h with hfirst | hrest
    · cases hfirst
      omega
    · have := bound_le_membersBound hrest
      omega

theorem bound_le_of_step? (h : x.step? step = some part) : part.bound ≤ x.bound := by
  cases step with
  | key name =>
    obtain ⟨id, members, rfl, hget⟩ := object_of_step? h
    have := bound_le_membersBound (Entries.mem_of_get? hget)
    rw [bound]
    omega
  | index i =>
    obtain ⟨id, items, rfl, hget⟩ := array_of_step? h
    have := bound_le_itemsBound (List.mem_of_getElem? hget)
    rw [bound]
    omega

theorem bound_le_of_at? (h : x.at? q = some part) : part.bound ≤ x.bound := by
  induction q generalizing x with
  | nil =>
    cases h
    exact Nat.le_refl _
  | cons step rest ih =>
    obtain ⟨next, hstep, hrest⟩ := Option.bind_eq_some_iff.mp h
    exact Nat.le_trans (ih hrest) (bound_le_of_step? hstep)

/-! ### The numbers of a new version -/

theorem number?_refilled (fresh : Nat) (current : Option Shared) (step : Step) (part : Shared) :
    (refilled fresh current step part).number? = some fresh := by
  cases step <;> rfl

/-- At every step of the path there is a container, numbered from the supply on. -/
theorem exists_number_place (h : place fresh path current value = .ok new) (hbefore : before <+: path)
    (hproper : before ≠ path) :
    ∃ c, new.at? before = some c ∧ c.number? = some (fresh + before.length) := by
  induction path generalizing fresh current new before with
  | nil => exact absurd (List.prefix_nil.mp hbefore) hproper
  | cons step rest ih =>
    obtain ⟨_, part, hpart, rfl⟩ := place_cons_eq_ok_iff.mp h
    cases before with
    | nil => exact ⟨_, rfl, number?_refilled fresh current step part⟩
    | cons first before =>
      obtain ⟨rfl, hrest⟩ := List.cons_prefix_cons.mp hbefore
      obtain ⟨c, hc, hnumber⟩ := ih hpart hrest fun h => hproper (h ▸ rfl)
      refine ⟨c, ?_, ?_⟩
      · rw [at?, step?_refilled, Option.bind_some, hc]
      · rw [hnumber, List.length_cons]
        congr 1
        omega

/-- Every other container has a number of the old version or of the value that was put. -/
theorem number_place {base : Nat} (hcurrent : ∀ x ∈ current, x.bound ≤ base)
    (hvalue : value.bound ≤ base) (h : place fresh path current value = .ok new)
    (hq : new.at? q = some x) (hn : x.number? = some n) :
    n < base ∨ q <+: path ∧ n = fresh + q.length := by
  induction path generalizing fresh current new q with
  | nil =>
    cases h
    have hbound := bound_le_of_at? hq
    have hlt := number?_lt_bound hn
    exact .inl (by omega)
  | cons step rest ih =>
    obtain ⟨hstep, part, hpart, rfl⟩ := place_cons_eq_ok_iff.mp h
    cases q with
    | nil =>
      cases hq
      rw [number?_refilled] at hn
      cases hn
      exact .inr ⟨List.nil_prefix, rfl⟩
    | cons other q =>
      obtain ⟨next, hnext, hq⟩ := Option.bind_eq_some_iff.mp hq
      by_cases hother : other = step
      · subst hother
        rw [step?_refilled] at hnext
        cases hnext
        have hparts : ∀ y ∈ current.bind (·.step? other), y.bound ≤ base := by
          intro y hy
          obtain ⟨x, hx, hstep⟩ := Option.bind_eq_some_iff.mp hy
          exact Nat.le_trans (bound_le_of_step? hstep) (hcurrent x hx)
        rcases ih hparts hpart hq with hold | ⟨habove, rfl⟩
        · exact .inl hold
        · refine .inr ⟨List.cons_prefix_cons.mpr ⟨rfl, habove⟩, ?_⟩
          rw [List.length_cons]
          omega
      · left
        rcases step?_refilled_of_ne hstep hother with hsame | ⟨_, hnull⟩
        · rw [hsame] at hnext
          obtain ⟨old, hold, hstep⟩ := Option.bind_eq_some_iff.mp hnext
          have hbase := hcurrent old hold
          have hpart := bound_le_of_step? hstep
          have hdeep := bound_le_of_at? hq
          have hlt := number?_lt_bound hn
          omega
        · rw [hnull] at hnext
          cases hnext
          cases q with
          | nil =>
            cases hq
            cases hn
          | cons next q => cases next <;> cases hq

end Shared

namespace Accessor

open Shared

/-- A replacement is a minimal update: a container at a path that parts from the accessor's own is the very
same one, and at every step of the path there is a new one, which is no container of the old version, none
of the value that was put, and at no other place. -/
theorem set_shares (a : Accessor) {root value new : Shared} (h : a.set root value = .ok new) :
    (∀ q c, a.path.Diverges q → root.at? q = some c → c.isContainer = true →
        ∃ d, new.at? q = some d ∧ d.sharesWith c = true) ∧
      ∀ before, before <+: a.path → before ≠ a.path →
        ∃ c, new.at? before = some c ∧ c.isContainer = true ∧
          (∀ q d, root.at? q = some d → c.sharesWith d = false) ∧
          (∀ q d, value.at? q = some d → c.sharesWith d = false) ∧
          ∀ q d, new.at? q = some d → c.sharesWith d = true → q = before := by
  constructor
  · intro q c hq hc hcontainer
    rcases at?_place_of_diverges h hq with hsame | ⟨hpadded, _⟩
    · exact ⟨c, hsame.trans hc, sharesWith_self hcontainer⟩
    · exact absurd (hpadded.missing.symm.trans hc) nofun
  · intro before hbefore hproper
    obtain ⟨c, hc, hnumber⟩ := exists_number_place h hbefore hproper
    -- no number that is in use already reaches the supply
    have hapart : ∀ (x : Shared) (q : Path) (d : Shared), x.bound ≤ max root.bound value.bound →
        x.at? q = some d → c.sharesWith d = false := by
      intro x q d hx hd
      refine Bool.eq_false_iff.mpr fun hshares => ?_
      have hlt := number?_lt_bound ((number?_of_sharesWith hshares).symm.trans hnumber)
      have hle := bound_le_of_at? hd
      omega
    refine ⟨c, hc, by rw [isContainer, hnumber, Option.isSome_some],
      fun q d hd => hapart root q d (by omega) hd, fun q d hd => hapart value q d (by omega) hd, ?_⟩
    intro q d hd hshares
    have hd' := (number?_of_sharesWith hshares).symm.trans hnumber
    have hroot : ∀ x ∈ some root, x.bound ≤ max root.bound value.bound := by
      rintro x ⟨⟩
      omega
    rcases number_place hroot (by omega) h hd hd' with hlt | ⟨habove, hlength⟩
    · omega
    · have hlengths : q.length = before.length := by omega
      exact (List.prefix_of_prefix_length_le habove hbefore (by omega)).eq_of_length hlengths

theorem set_slot_shares : ∃ new, slot.set shelf (.array 5 []) = .ok new ∧
    (∃ d, new.at? [.key "owner"] = some d ∧
      d.sharesWith (.object 2 [("name", .string "n")]) = true) ∧
    (∃ c, new.at? [.key "list"] = some c ∧ c.sharesWith (.array 1 [.bool true]) = false) ∧
    ∃ c, new.at? [.key "list", .index 2] = some c ∧ c.sharesWith (.array 5 []) = false := by
  have hset : slot.set shelf (.array 5 []) = .ok _ := rfl
  obtain ⟨hkept, hmade⟩ := set_shares slot hset
  obtain ⟨c, hc, _, hlist, _⟩ := hmade [.key "list"] (by decide) (by decide)
  obtain ⟨e, he, _, _, hvalue, _⟩ := hmade [.key "list", .index 2] (by decide) (by decide)
  exact ⟨_, hset, hkept [.key "owner"] _ (by decide) rfl rfl, ⟨c, hc, hlist [.key "list"] _ rfl⟩,
    e, he, hvalue [] _ rfl⟩

end Accessor

end DataSchema
