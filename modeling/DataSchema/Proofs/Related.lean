import DataSchema.Entries
import Mathlib.Data.List.Forall2
import Mathlib.Data.List.Nodup
import Mathlib.Data.List.Perm.Subperm
import Mathlib.Order.Defs.Unbundled

/-!
Options, lists and maps of related things.

Two options are related when both are empty, or hold related things; two lists, when they are related
element by element. Two maps that have no key twice are *rearranged* when the look-ups under every key are
related: then the order of the entries is all that may differ besides (`Entries.rearranged_iff_perm`).
-/

namespace DataSchema

variable {α β γ δ : Type} {R S : α → β → Prop}

/-! ### Options -/

section Options

variable {x : Option α} {y : Option β}

theorem isSome_of_rel (h : Option.Rel R x y) : x.isSome = y.isSome := by
  cases h <;> rfl

theorem cases_of_rel (h : Option.Rel R x y) :
    (x = none ∧ y = none) ∨ ∃ a b, x = some a ∧ y = some b ∧ R a b := by
  cases h with
  | some hab => exact .inr ⟨_, _, rfl, rfl, hab⟩
  | none => exact .inl ⟨rfl, rfl⟩

theorem rel_map {Q : γ → δ → Prop} {f : α → γ} {g : β → δ} (h : Option.Rel R x y)
    (hfg : ∀ a b, x = some a → y = some b → R a b → Q (f a) (g b)) :
    Option.Rel Q (x.map f) (y.map g) := by
  cases h with
  | some hab => exact .some (hfg _ _ rfl rfl hab)
  | none => exact .none

theorem rel_imp (h : Option.Rel R x y) (hRS : ∀ a b, x = some a → R a b → S a b) :
    Option.Rel S x y := by
  cases h with
  | some hab => exact .some (hRS _ _ rfl hab)
  | none => exact .none

theorem rel_same {R : α → α → Prop} : ∀ {x : Option α}, (∀ a ∈ x, R a a) → Option.Rel R x x
  | none, _ => .none
  | some a, h => .some (h a rfl)

theorem rel_flip (h : Option.Rel R x y) : Option.Rel (flip R) y x := by
  cases h with
  | some hab => exact .some hab
  | none => exact .none

theorem rel_or {x' : Option α} {y' : Option β} (h : Option.Rel R x y) (h' : Option.Rel R x' y') :
    Option.Rel R (x.or x') (y.or y') := by
  cases h with
  | some hab => exact .some hab
  | none => exact h'

theorem forall_mem_iff_of_rel {p : α → Prop} {q : β → Prop} (h : Option.Rel R x y)
    (hpq : ∀ a b, R a b → (p a ↔ q b)) : (∀ a ∈ x, p a) ↔ ∀ b ∈ y, q b := by
  rcases cases_of_rel h with ⟨rfl, rfl⟩ | ⟨a, b, rfl, rfl, hab⟩
  · simp
  · simpa using hpq a b hab

end Options

/-! ### Lists -/

section Lists

variable {xs : List α} {ys : List β}

theorem forall₂_imp (h : List.Forall₂ R xs ys) (hRS : ∀ x ∈ xs, ∀ y, R x y → S x y) :
    List.Forall₂ S xs ys := by
  induction h with
  | nil => exact .nil
  | cons hxy _ ih =>
    rw [List.forall_mem_cons] at hRS
    exact .cons (hRS.1 _ hxy) (ih hRS.2)

theorem rel_getElem? (h : List.Forall₂ R xs ys) (i : Nat) : Option.Rel R xs[i]? ys[i]? := by
  induction h generalizing i with
  | nil => exact .none
  | cons hxy _ ih =>
    cases i with
    | zero => exact .some hxy
    | succ i => exact ih i

/-- What holds of related elements alike, holds of all elements of both lists or of neither's. -/
theorem forall_mem_iff_of_forall₂ {p : α → Prop} {q : β → Prop} (h : List.Forall₂ R xs ys)
    (hpq : ∀ x y, R x y → (p x ↔ q y)) : (∀ x ∈ xs, p x) ↔ ∀ y ∈ ys, q y := by
  induction h with
  | nil => simp
  | cons hxy _ ih => rw [List.forall_mem_cons, List.forall_mem_cons, ih, hpq _ _ hxy]

theorem exists_mem_iff_of_forall₂ {p : α → Prop} {q : β → Prop} (h : List.Forall₂ R xs ys)
    (hpq : ∀ x y, R x y → (p x ↔ q y)) : (∃ x ∈ xs, p x) ↔ ∃ y ∈ ys, q y := by
  induction h with
  | nil => simp
  | cons hxy _ ih => simp only [List.exists_mem_cons_iff, ih, hpq _ _ hxy]

theorem exists_forall₂ : ∀ {ys : List β}, (∀ y ∈ ys, ∃ x, R x y) → ∃ xs, List.Forall₂ R xs ys
  | [], _ => ⟨[], .nil⟩
  | y :: ys, h => by
    rw [List.forall_mem_cons] at h
    obtain ⟨⟨x, hxy⟩, hrest⟩ := h
    obtain ⟨xs, hxs⟩ := exists_forall₂ hrest
    exact ⟨x :: xs, .cons hxy hxs⟩

/-- A place in one of two related lists has its place in the other; so the elements elsewhere are related
too. -/
theorem exists_place_of_forall₂ {before after : List α} {x : α} : ∀ {ys : List β},
    List.Forall₂ R (before ++ x :: after) ys →
      ∃ before' y after', ys = before' ++ y :: after' ∧ R x y ∧
        List.Forall₂ R (before ++ after) (before' ++ after') := by
  induction before with
  | nil =>
    rintro _ (_ | ⟨hxy, hrest⟩)
    exact ⟨[], _, _, rfl, hxy, hrest⟩
  | cons b before ih =>
    rintro _ (_ | ⟨hb, hrest⟩)
    obtain ⟨before', y, after', rfl, hxy, hothers⟩ := ih hrest
    exact ⟨_ :: before', y, after', rfl, hxy, .cons hb hothers⟩

theorem pairwise_iff_of_forall₂ {p : α → α → Prop} {q : β → β → Prop} (h : List.Forall₂ R xs ys)
    (hpq : ∀ x y x' y', R x y → R x' y' → (p x x' ↔ q y y')) : xs.Pairwise p ↔ ys.Pairwise q := by
  induction h with
  | nil => simp
  | cons hxy hrest ih =>
    rw [List.pairwise_cons, List.pairwise_cons, ih,
      forall_mem_iff_of_forall₂ hrest fun x' y' => hpq _ _ x' y' hxy]

/-- A list compared with related lists. -/
theorem forall₂_iff_right {p : γ → α → Prop} {q : γ → β → Prop} (h : List.Forall₂ R xs ys) :
    ∀ {cs : List γ}, (∀ c ∈ cs, ∀ x ∈ xs, ∀ y, R x y → (p c x ↔ q c y)) →
      (List.Forall₂ p cs xs ↔ List.Forall₂ q cs ys) := by
  induction h with
  | nil => intro cs _; cases cs <;> simp
  | @cons x y xs ys hxy _ ih =>
    intro cs hpq
    cases cs with
    | nil => simp
    | cons c cs =>
      have hrest := ih fun c' hc x' hx => hpq c' (List.mem_cons_of_mem c hc) x' (List.mem_cons_of_mem x hx)
      rw [List.forall₂_cons, List.forall₂_cons, hrest,
        hpq c List.mem_cons_self x List.mem_cons_self y hxy]

/-- Related lists compared with a list. -/
theorem forall₂_iff_left {p : α → γ → Prop} {q : β → γ → Prop} (h : List.Forall₂ R xs ys)
    {cs : List γ} (hpq : ∀ c ∈ cs, ∀ x ∈ xs, ∀ y, R x y → (p x c ↔ q y c)) :
    List.Forall₂ p xs cs ↔ List.Forall₂ q ys cs := by
  have hflip : List.Forall₂ (flip p) cs xs ↔ List.Forall₂ (flip q) cs ys := forall₂_iff_right h hpq
  exact ⟨fun hp => (hflip.mp hp.flip).flip, fun hq => (hflip.mpr hq.flip).flip⟩

theorem forall₂_trans {R : α → α → Prop} [IsTrans α R] : ∀ {xs ys zs : List α},
    List.Forall₂ R xs ys → List.Forall₂ R ys zs → List.Forall₂ R xs zs
  | [], _, _, .nil, .nil => .nil
  | _ :: _, _, _, .cons h hs, .cons h' hs' => .cons (trans_of R h h') (forall₂_trans hs hs')

instance isPreorder_forall₂ {R : α → α → Prop} [IsPreorder α R] :
    IsPreorder (List α) (List.Forall₂ R) where
  refl := List.forall₂_refl
  trans _ _ _ := forall₂_trans

end Lists

namespace Entries

/-! ### Entries one by one -/

/-- Entries under one key whose values are related. -/
inductive Under (R : α → β → Prop) : String × α → String × β → Prop where
  | intro {key : String} {x : α} {y : β} : R x y → Under R (key, x) (key, y)

instance {R : α → α → Prop} [IsPreorder α R] : IsPreorder (String × α) (Under R) where
  refl e := .intro (refl_of R e.2)
  trans _ _ _ | .intro h, .intro h' => .intro (trans_of R h h')

variable {ms : List (String × α)} {ns : List (String × β)}

theorem keys_eq_of_forall₂ (h : List.Forall₂ (Under R) ms ns) : keys ms = keys ns := by
  induction h with
  | nil => rfl
  | cons hentry _ ih =>
    obtain ⟨_⟩ := hentry
    rw [keys_cons, keys_cons, ih]

theorem rel_get? (h : List.Forall₂ (Under R) ms ns) (key : String) :
    Option.Rel R (get? ms key) (get? ns key) := by
  induction h with
  | nil => exact .none
  | cons hentry _ ih =>
    obtain ⟨hvalue⟩ := hentry
    rw [get?_cons, get?_cons]
    split
    · exact .some hvalue
    · exact ih

/-- The values under the keys that pass a test. -/
theorem forall₂_filter_keys (h : List.Forall₂ (Under R) ms ns) (p : String → Bool) :
    List.Forall₂ R ((ms.filter (p ·.1)).map Prod.snd) ((ns.filter (p ·.1)).map Prod.snd) := by
  induction h with
  | nil => exact .nil
  | cons hentry _ ih =>
    obtain ⟨hvalue⟩ := hentry
    rw [List.filter_cons, List.filter_cons]
    split
    · exact .cons hvalue ih
    · exact ih

/-! ### Entries in any order -/

/-- No key stands twice, and both maps have related values under the same keys. -/
structure Rearranged (R : α → β → Prop) (ms : List (String × α)) (ns : List (String × β)) : Prop where
  left : (keys ms).Nodup
  right : (keys ns).Nodup
  rel : ∀ key, Option.Rel R (get? ms key) (get? ns key)

namespace Rearranged

theorem symm (h : Rearranged R ms ns) : Rearranged (flip R) ns ms :=
  ⟨h.right, h.left, fun key => rel_flip (h.rel key)⟩

theorem has_eq (h : Rearranged R ms ns) (key : String) : has ms key = has ns key :=
  isSome_of_rel (h.rel key)

theorem mem_keys_iff (h : Rearranged R ms ns) (key : String) : key ∈ keys ms ↔ key ∈ keys ns := by
  rw [← has_iff, ← has_iff, h.has_eq]

theorem length_eq (h : Rearranged R ms ns) : ms.length = ns.length := by
  have hperm := (List.perm_ext_iff_of_nodup h.left h.right).mpr h.mem_keys_iff
  have hlength := hperm.length_eq
  rwa [keys, keys, List.length_map, List.length_map] at hlength

theorem exists_right (h : Rearranged R ms ns) {key : String} {x : α} (hx : (key, x) ∈ ms) :
    ∃ y, (key, y) ∈ ns ∧ R x y := by
  rcases cases_of_rel (h.rel key) with ⟨hnone, -⟩ | ⟨a, b, ha, hb, hab⟩
  · cases hnone.symm.trans (get?_of_mem h.left hx)
  · cases ha.symm.trans (get?_of_mem h.left hx)
    exact ⟨b, mem_of_get? hb, hab⟩

theorem exists_left (h : Rearranged R ms ns) {key : String} {y : β} (hy : (key, y) ∈ ns) :
    ∃ x, (key, x) ∈ ms ∧ R x y :=
  h.symm.exists_right hy

/-- What holds of related values under one key alike, holds of all entries of both maps or of neither's. -/
theorem forall_mem_iff (h : Rearranged R ms ns) {p : String → α → Prop} {q : String → β → Prop}
    (hpq : ∀ key x y, (key, x) ∈ ms → (key, y) ∈ ns → R x y → (p key x ↔ q key y)) :
    (∀ e ∈ ms, p e.1 e.2) ↔ ∀ e ∈ ns, q e.1 e.2 := by
  constructor
  · rintro hp ⟨key, y⟩ hy
    obtain ⟨x, hx, hxy⟩ := h.exists_left hy
    exact (hpq key x y hx hy hxy).mp (hp (key, x) hx)
  · rintro hq ⟨key, x⟩ hx
    obtain ⟨y, hy, hxy⟩ := h.exists_right hx
    exact (hpq key x y hx hy hxy).mpr (hq (key, y) hy)

/-- Maps with the same keys, and related values under each of them. -/
theorem of_keys (hleft : (keys ms).Nodup) (hright : (keys ns).Nodup)
    (hkeys : ∀ key, key ∈ keys ms ↔ key ∈ keys ns)
    (hvalues : ∀ key x y, (key, x) ∈ ms → (key, y) ∈ ns → R x y) : Rearranged R ms ns := by
  refine ⟨hleft, hright, fun key => ?_⟩
  cases hx : get? ms key with
  | none =>
    rw [get?_eq_none_iff, hkeys, ← get?_eq_none_iff] at hx
    rw [hx]
    exact .none
  | some x =>
    have hmem := mem_of_get? hx
    have hkey : key ∈ keys ns := (hkeys key).mp (List.mem_map_of_mem (f := Prod.fst) hmem)
    obtain ⟨⟨_, y⟩, hy, rfl⟩ := List.mem_map.mp hkey
    rw [get?_of_mem hright hy]
    exact .some (hvalues _ x y hmem hy)

/-- Entries that stand in another order. -/
theorem of_perm {R : α → α → Prop} {ms ns : List (String × α)} (h : ms.Perm ns)
    (hkeys : (keys ms).Nodup) (hR : ∀ e ∈ ms, R e.2 e.2) : Rearranged R ms ns := by
  have hright : (keys ns).Nodup := (h.map Prod.fst).nodup_iff.mp hkeys
  refine .of_keys hkeys hright (fun _ => (h.map Prod.fst).mem_iff) fun key x y hx hy => ?_
  cases (get?_of_mem hright (h.mem_iff.mp hx)).symm.trans (get?_of_mem hright hy)
  exact hR _ hx

/-- Maps of one size, where every entry of the first has a related one under its key in the second. No
key of the second is left over then, since no key of the first stands twice. -/
theorem of_found (hkeys : (keys ms).Nodup) (hlength : ms.length = ns.length)
    (h : ∀ e ∈ ms, ∃ y, get? ns e.1 = some y ∧ R e.2 y) : Rearranged R ms ns := by
  have hsubset : keys ms ⊆ keys ns := by
    intro key hkey
    obtain ⟨e, he, rfl⟩ := List.mem_map.mp hkey
    obtain ⟨y, hy, -⟩ := h e he
    exact List.mem_map_of_mem (f := Prod.fst) (mem_of_get? hy)
  have hperm : (keys ms).Perm (keys ns) :=
    (List.subperm_of_subset hkeys hsubset).perm_of_length_le (by simp [keys, hlength])
  have hright : (keys ns).Nodup := hperm.nodup_iff.mp hkeys
  refine .of_keys hkeys hright (fun _ => hperm.mem_iff) fun key x y hx hy => ?_
  obtain ⟨y', hy', hxy⟩ := h _ hx
  cases hy'.symm.trans (get?_of_mem hright hy)
  exact hxy

theorem imp (h : Rearranged R ms ns) (hRS : ∀ key x y, (key, x) ∈ ms → R x y → S x y) :
    Rearranged S ms ns where
  left := h.left
  right := h.right
  rel key := rel_imp (h.rel key) fun x y hx => hRS key x y (mem_of_get? hx)

theorem map {Q : γ → δ → Prop} (h : Rearranged R ms ns) {f : String → α → γ} {g : String → β → δ}
    (hfg : ∀ key x y, (key, x) ∈ ms → R x y → Q (f key x) (g key y)) :
    Rearranged Q (ms.map fun e => (e.1, f e.1 e.2)) (ns.map fun e => (e.1, g e.1 e.2)) where
  left := by
    rw [keys_map]
    exact h.left
  right := by
    rw [keys_map]
    exact h.right
  rel key := by
    rw [get?_map, get?_map]
    exact rel_map (h.rel key) fun x y hx _ => hfg key x y (mem_of_get? hx)

end Rearranged

/-- For maps of one size, it is enough to find the entries of the first in the second. -/
theorem rearranged_iff_found (hkeys : (keys ms).Nodup) : Rearranged R ms ns ↔
    ms.length = ns.length ∧ ∀ e ∈ ms, ∃ y, get? ns e.1 = some y ∧ R e.2 y := by
  constructor
  · intro h
    refine ⟨h.length_eq, fun e he => ?_⟩
    obtain ⟨y, hy, hxy⟩ := h.exists_right he
    exact ⟨y, get?_of_mem h.right hy, hxy⟩
  · rintro ⟨hlength, hfound⟩
    exact .of_found hkeys hlength hfound

/-- The same keys, and related values under each of them. -/
theorem rearranged_iff_keys (hms : (keys ms).Nodup) (hns : (keys ns).Nodup) : Rearranged R ms ns ↔
    (∀ key, key ∈ keys ms ↔ key ∈ keys ns) ∧
      ∀ key x y, (key, x) ∈ ms → (key, y) ∈ ns → R x y := by
  constructor
  · intro h
    refine ⟨h.mem_keys_iff, fun key x y hx hy => ?_⟩
    obtain ⟨y', hy', hxy⟩ := h.exists_right hx
    cases (get?_of_mem hns hy').symm.trans (get?_of_mem hns hy)
    exact hxy
  · rintro ⟨hkeys, hvalues⟩
    exact .of_keys hms hns hkeys hvalues

/-- The entries of the first map can be put into the order of those of the second, to stand under the same
keys and have related values. -/
theorem rearranged_iff_perm : Rearranged R ms ns ↔
    (keys ms).Nodup ∧ ∃ ks, ms.Perm ks ∧ List.Forall₂ (Under R) ks ns := by
  constructor
  · intro h
    have hpartner : ∀ e ∈ ns, ∃ d, d ∈ ms ∧ Under R d e := by
      rintro ⟨key, y⟩ hy
      obtain ⟨x, hx, hxy⟩ := h.exists_left hy
      exact ⟨(key, x), hx, .intro hxy⟩
    obtain ⟨ks, hks⟩ := exists_forall₂ hpartner
    rw [List.forall₂_and_left] at hks
    obtain ⟨hsubset, hunder⟩ := hks
    -- no partner is taken twice, as no key stands twice, and there are as many as there are entries
    have hnodup : ks.Nodup := by
      refine List.Nodup.of_map Prod.fst ?_
      rw [← keys, keys_eq_of_forall₂ hunder]
      exact h.right
    have hsize : ms.length ≤ ks.length := Nat.le_of_eq (h.length_eq.trans hunder.length_eq.symm)
    have hperm := (List.subperm_of_subset hnodup hsubset).perm_of_length_le hsize
    exact ⟨h.left, ks, hperm.symm, hunder⟩
  · rintro ⟨hkeys, ks, hperm, hunder⟩
    have hsame : Rearranged Eq ms ks := .of_perm hperm hkeys fun _ _ => rfl
    refine ⟨hkeys, keys_eq_of_forall₂ hunder ▸ hsame.right, fun key => ?_⟩
    have hget : get? ms key = get? ks key := by
      rcases cases_of_rel (hsame.rel key) with ⟨hx, hy⟩ | ⟨x, _, hx, hy, rfl⟩
      · rw [hx, hy]
      · rw [hx, hy]
    rw [hget]
    exact rel_get? hunder key

end Entries

end DataSchema
