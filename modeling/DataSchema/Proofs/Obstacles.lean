import DataSchema.Proofs.Lens

/-!
Where a replacement fails.

A replacement succeeds exactly if each step of its path can be taken from what the old root has there, and
the first step that cannot decides the error (`Accessor.set_meets_first_obstacle`): what the replacement
makes on its way down never stands in its own way. The lengths and indices that it computes stay within
machine words (`Shared.paddedOnWords?_eq`).
-/

namespace DataSchema

namespace AccessError

/-- The error as seen from where the path starts. -/
def underAll (path : Path) (e : AccessError) : AccessError := path.foldr under e

theorem underAll_notAContainer (path rest : Path) (found : String) :
    (notAContainer rest found).underAll path = .notAContainer (path ++ rest) found := by
  induction path with
  | nil => rfl
  | cons step path ih =>
    change ((notAContainer rest found).underAll path).under step = _
    rw [ih]
    rfl

theorem underAll_indexTooFar (path rest : Path) (index length : Nat) :
    (indexTooFar rest index length).underAll path = .indexTooFar (path ++ rest) index length := by
  induction path with
  | nil => rfl
  | cons step path ih =>
    change ((indexTooFar rest index length).underAll path).under step = _
    rw [ih]
    rfl

end AccessError

namespace Shared

variable {fresh : Nat} {current : Option Shared} {step : Step} {path : Path} {value new : Shared}
  {e : AccessError}

/-! ### Single steps -/

/-- What a step can lead out of: nothing yet, a null, or a container of the kind that the step is for. -/
inductive Enterable : Option Shared → Step → Prop where
  | missing (step : Step) : Enterable none step
  | null (step : Step) : Enterable (some .null) step
  | object (id : Nat) (members : List (String × Shared)) (name : String) :
    Enterable (some (.object id members)) (.key name)
  | array (id : Nat) (items : List Shared) (i : Nat) : Enterable (some (.array id items)) (.index i)

/-- An index is within reach if it is not too far behind the elements there are. -/
def WithinReach (current : Option Shared) : Step → Prop
  | .key _ => True
  | .index i => i ≤ 4096 + (itemsOf current).length

/-- The step can be taken. -/
def Open (current : Option Shared) (step : Step) : Prop := Enterable current step ∧ WithinReach current step

theorem mismatch?_eq_none_iff : mismatch? current step = none ↔ Enterable current step := by
  constructor
  · intro h
    cases current with
    | none => exact .missing step
    | some x =>
      cases x with
      | null => exact .null step
      | object id members =>
        cases step with
        | key name => exact .object id members name
        | index i => cases h
      | array id items =>
        cases step with
        | key name => cases h
        | index i => exact .array id items i
      | _ => cases step <;> cases h
  · intro h
    cases h with
    | null step => cases step <;> rfl
    | _ => rfl

/-- What cannot be entered is there, and its kind is reported. -/
theorem mismatch?_of_not_enterable (h : ¬ Enterable current step) :
    ∃ x, current = some x ∧ mismatch? current step = some (.notAContainer [] x.kindName) := by
  rw [← mismatch?_eq_none_iff, ← ne_eq, Option.ne_none_iff_exists'] at h
  obtain ⟨e, he⟩ := h
  obtain ⟨x, hx, rfl⟩ := Option.map_eq_some_iff.mp he
  exact ⟨x, (Option.filter_eq_some_iff.mp hx).1, he⟩

theorem overrun?_eq_none_iff : overrun? current step = none ↔ WithinReach current step := by
  cases step with
  | key name => exact iff_of_true rfl trivial
  | index i =>
    rw [overrun?, WithinReach, maxPadding]
    split
    · exact iff_of_false (Option.some_ne_none _) (by omega)
    · exact iff_of_true rfl (by omega)

theorem overrun?_of_not_withinReach (h : ¬ WithinReach current step) :
    ∃ i, step = .index i ∧
      overrun? current step = some (.indexTooFar [step] i (itemsOf current).length) := by
  cases step with
  | key name => exact absurd trivial h
  | index i =>
    rw [WithinReach] at h
    exact ⟨i, rfl, if_pos (by rw [maxPadding]; omega)⟩

theorem obstacle?_eq_none_iff : obstacle? current step = none ↔ Open current step := by
  rw [obstacle?, Option.or_eq_none_iff, mismatch?_eq_none_iff, overrun?_eq_none_iff, Open]

/-! ### Paths -/

theorem forall_getElem?_cons {p : Nat → Step → Prop} :
    (∀ i s, (step :: path)[i]? = some s → p i s) ↔
      p 0 step ∧ ∀ i s, path[i]? = some s → p (i + 1) s := by
  constructor
  · exact fun h => ⟨h 0 step rfl, fun i s hs => h (i + 1) s hs⟩
  · rintro ⟨hfirst, hrest⟩ (_ | i) s hs
    · cases hs
      exact hfirst
    · exact hrest i s hs

/-- A replacement goes through if no step meets an obstacle in what is there already. -/
theorem exists_place_iff (fresh : Nat) (current : Option Shared) (value : Shared) :
    (∃ new, place fresh path current value = .ok new) ↔
      ∀ i s, path[i]? = some s → obstacle? (current.bind (·.at? (path.take i))) s = none := by
  induction path generalizing fresh current with
  | nil => exact iff_of_true ⟨value, rfl⟩ fun i s hs => nomatch hs
  | cons step rest ih =>
    have hroot : current.bind (·.at? []) = current := Option.bind_fun_some current
    simp only [place_cons_eq_ok_iff, forall_getElem?_cons, List.take_zero, hroot, List.take_succ_cons,
      bind_at?_cons, ← ih (fresh + 1)]
    constructor
    · rintro ⟨_, hstep, part, hpart, _⟩
      exact ⟨hstep, part, hpart⟩
    · rintro ⟨hstep, part, hpart⟩
      exact ⟨_, hstep, part, hpart, rfl⟩

/-- The first obstacle is what a replacement fails with. -/
theorem place_eq_error (fresh : Nat) (current : Option Shared) (value : Shared) {i : Nat}
    (hstep : path[i]? = some step)
    (hbefore : ∀ j s, j < i → path[j]? = some s →
      obstacle? (current.bind (·.at? (path.take j))) s = none)
    (h : obstacle? (current.bind (·.at? (path.take i))) step = some e) :
    place fresh path current value = .error (e.underAll (path.take i)) := by
  induction path generalizing fresh current i with
  | nil => cases hstep
  | cons first rest ih =>
    have hroot : current.bind (·.at? []) = current := Option.bind_fun_some current
    cases i with
    | zero =>
      cases hstep
      rw [List.take_zero, hroot] at h
      rw [place_cons, h]
      rfl
    | succ i =>
      have hfirst := hbefore 0 first (Nat.succ_pos i) rfl
      rw [List.take_zero, hroot] at hfirst
      rw [List.take_succ_cons, bind_at?_cons] at h
      have hrest := ih (fresh + 1) (current.bind (·.step? first)) hstep (fun j s hj hs => by
        have hnext := hbefore (j + 1) s (Nat.succ_lt_succ hj) hs
        rwa [List.take_succ_cons, bind_at?_cons] at hnext) h
      rw [place_cons, hfirst, Option.elim_none, hrest]
      rfl

/-! ### Indices as machine words -/

/-- The difference of two words, unless it is below zero. -/
def wordSub? (x y : UInt64) : Option UInt64 := if y ≤ x then some (x - y) else none

/-- The sum of two words, unless it is no word. -/
def wordAdd? (x y : UInt64) : Option UInt64 :=
  if x.toNat + y.toNat < UInt64.size then some (x + y) else none

/-- The elements with enough nulls behind them for the index, by computations on words: nothing if one of
these leaves the words. -/
def paddedOnWords? (items : List Shared) (index : UInt64) : Option (Except AccessError (List Shared)) :=
  let length := UInt64.ofNat items.length
  if length ≤ index then do
    let gap ← wordSub? index length
    if 4096 < gap then
      return .error (.indexTooFar [.index index.toNat] index.toNat items.length)
    else
      let grown ← wordAdd? index 1
      return .ok (items ++ List.replicate (grown.toNat - items.length) .null)
  else return .ok items

/-- No computation leaves the words: an array in memory has fewer than `2 ^ 63` elements. -/
theorem paddedOnWords?_eq {items : List Shared} (h : items.length < Whole.signedLimit) (index : UInt64) :
    paddedOnWords? items index = some (padded items index.toNat) := by
  rw [Whole.signedLimit] at h
  have hlength : (UInt64.ofNat items.length).toNat = items.length := by
    rw [UInt64.toNat_ofNat']
    omega
  have hlimit : (4096 : UInt64).toNat = 4096 := rfl
  rw [paddedOnWords?]
  by_cases hle : UInt64.ofNat items.length ≤ index
  · have hgap := UInt64.toNat_sub_of_le index _ hle
    rw [hlength] at hgap
    have hnat := UInt64.le_iff_toNat_le.mp hle
    rw [hlength] at hnat
    rw [if_pos hle, wordSub?, if_pos hle, Option.bind_eq_bind, Option.bind_some]
    by_cases hfar : 4096 < index - UInt64.ofNat items.length
    · rw [if_pos hfar]
      rw [UInt64.lt_iff_toNat_lt, hgap, hlimit] at hfar
      rw [padded, if_pos (by rw [maxPadding]; omega)]
      rfl
    · rw [if_neg hfar]
      rw [UInt64.lt_iff_toNat_lt, hgap, hlimit] at hfar
      have hone : (1 : UInt64).toNat = 1 := rfl
      have hfits : index.toNat + (1 : UInt64).toNat < UInt64.size := by
        rw [hone, UInt64.size]
        omega
      have hgrown : (index + 1).toNat = index.toNat + 1 := by
        rw [UInt64.toNat_add, hone, Nat.mod_eq_of_lt (by rwa [hone] at hfits)]
      rw [wordAdd?, if_pos hfits, Option.bind_some, hgrown, padded,
        if_neg (by rw [maxPadding]; omega)]
      rfl
  · have hnat := hle
    rw [UInt64.le_iff_toNat_le, hlength] at hnat
    rw [if_neg hle, padded, if_neg (by omega), Nat.sub_eq_zero_of_le (by omega), List.replicate_zero,
      List.append_nil]
    rfl

end Shared

namespace Accessor

open Shared

/-- A replacement succeeds exactly if every step of the path can be taken from what the root has there. If
not, the first step that cannot decides the error: it names the place of what the step cannot enter and its
kind, or the place of the index that lies too far, and the length of the array. No index leaves the machine
words on the way. -/
theorem set_meets_first_obstacle (a : Accessor) (root value : Shared) :
    ((∃ new, a.set root value = .ok new) ↔
      ∀ i step, a.path[i]? = some step → Open (root.at? (a.path.take i)) step) ∧
    (∀ i step, a.path[i]? = some step →
      (∀ j other, j < i → a.path[j]? = some other → Open (root.at? (a.path.take j)) other) →
      (¬ Enterable (root.at? (a.path.take i)) step →
        ∃ x e, root.at? (a.path.take i) = some x ∧ a.set root value = .error e ∧
          e = .notAContainer (a.path.take i) x.kindName ∧
          e.message = "cannot step into " ++ x.kindName ++ " at '" ++
            Path.render (a.path.take i) ++ "'") ∧
      (Enterable (root.at? (a.path.take i)) step → ¬ WithinReach (root.at? (a.path.take i)) step →
        ∃ index length e, step = .index index ∧ length = (itemsOf (root.at? (a.path.take i))).length ∧
          a.set root value = .error e ∧ e = .indexTooFar (a.path.take (i + 1)) index length ∧
          e.message = "index " ++ toString index ++ " at '" ++ Path.render (a.path.take (i + 1)) ++
            "' is too far past the end of an array of length " ++ toString length)) ∧
    ∀ (items : List Shared) (index : UInt64), items.length < Whole.signedLimit →
      paddedOnWords? items index = some (padded items index.toNat) := by
  simp only [← obstacle?_eq_none_iff]
  refine ⟨exists_place_iff _ (some root) value, fun i step hstep hbefore => ⟨fun henter => ?_,
    fun henter hreach => ?_⟩, fun items index h => paddedOnWords?_eq h index⟩
  · obtain ⟨x, hx, hmismatch⟩ := mismatch?_of_not_enterable henter
    have hobstacle : obstacle? (root.at? (a.path.take i)) step =
        some (.notAContainer [] x.kindName) := by rw [obstacle?, hmismatch, Option.some_or]
    refine ⟨x, _, hx, place_eq_error _ (some root) value hstep hbefore hobstacle, ?_⟩
    rw [AccessError.underAll_notAContainer, List.append_nil]
    exact ⟨rfl, rfl⟩
  · obtain ⟨index, hindex, hoverrun⟩ := overrun?_of_not_withinReach hreach
    have hobstacle : obstacle? (root.at? (a.path.take i)) step =
        some (.indexTooFar [step] index (itemsOf (root.at? (a.path.take i))).length) := by
      rw [obstacle?, mismatch?_eq_none_iff.mpr henter, Option.none_or, hoverrun]
    refine ⟨index, _, _, hindex, rfl, place_eq_error _ (some root) value hstep hbefore hobstacle, ?_⟩
    rw [AccessError.underAll_indexTooFar, List.take_add_one, hstep, Option.toList_some]
    exact ⟨rfl, rfl⟩

/-- A name beyond a name, and an element far behind a list of one. -/
theorem set_beyond_shelf :
    (∃ x e, shelf.at? [.key "owner", .key "name"] = some x ∧
      ({ path := [.key "owner", .key "name", .key "first"] } : Accessor).set shelf .null = .error e ∧
      e = .notAContainer [.key "owner", .key "name"] x.kindName ∧
      e.message = "cannot step into " ++ x.kindName ++ " at '" ++
        Path.render [.key "owner", .key "name"] ++ "'") ∧
    (∃ index length e, Step.index 4098 = .index index ∧
      length = (itemsOf (shelf.at? [.key "list"])).length ∧
      ({ path := [.key "list", .index 4098, .key "name"] } : Accessor).set shelf .null = .error e ∧
      e = .indexTooFar [.key "list", .index 4098] index length ∧
      e.message = "index " ++ toString index ++ " at '" ++
        Path.render [.key "list", .index 4098] ++
          "' is too far past the end of an array of length " ++ toString length) ∧
    paddedOnWords? [] 18446744073709551615 = some (padded [] 18446744073709551615) := by
  have hroot : ∀ name, Open (some shelf) (.key name) := fun name => ⟨.object _ _ name, trivial⟩
  have howner := set_meets_first_obstacle { path := [.key "owner", .key "name", .key "first"] } shelf .null
  have hlist := set_meets_first_obstacle { path := [.key "list", .index 4098, .key "name"] } shelf .null
  refine ⟨(howner.2.1 2 _ rfl ?_).1 nofun, (hlist.2.1 1 _ rfl ?_).2 (.array _ _ _) ?_,
    hlist.2.2 [] 18446744073709551615 (by decide)⟩
  · rintro (_ | _ | j) other hj hother
    · cases hother
      exact hroot "owner"
    · cases hother
      exact ⟨.object _ _ "name", trivial⟩
    · omega
  · rintro (_ | j) other hj hother
    · cases hother
      exact hroot "list"
    · omega
  · exact (by decide : ¬ 4098 ≤ 4096 + 1)

end Accessor

end DataSchema
