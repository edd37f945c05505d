/-!
Ordered maps as lists of entries.

The members of an object and the properties of a schema keep the order in which their keys were first
put. Putting a value under a present key leaves the key in its place; a new key goes last. A list
built from `put` has no key twice.
-/

namespace DataSchema.Entries

variable {α β : Type}

def get? (entries : List (String × α)) (key : String) : Option α :=
  match entries with
  | [] => none
  | (k, v) :: rest => if k = key then some v else get? rest key

def has (entries : List (String × α)) (key : String) : Bool := (get? entries key).isSome

def keys (entries : List (String × α)) : List String := entries.map Prod.fst

/-- Replaces the value under `key` where it stands, or appends the entry. -/
def put (entries : List (String × α)) (key : String) (value : α) : List (String × α) :=
  match entries with
  | [] => [(key, value)]
  | (k, v) :: rest => if k = key then (key, value) :: rest else (k, v) :: put rest key value

/-- Drops the entry under `key`; the others keep their order. -/
def erase (entries : List (String × α)) (key : String) : List (String × α) :=
  match entries with
  | [] => []
  | (k, v) :: rest => if k = key then rest else (k, v) :: erase rest key

/-- Applies `f` to the value under `key`, if there is one. -/
def modify (entries : List (String × α)) (key : String) (f : α → α) : List (String × α) :=
  match entries with
  | [] => []
  | (k, v) :: rest => if k = key then (k, f v) :: rest else (k, v) :: modify rest key f

/-- Puts the entries one after another: the first place and the last value of each key. -/
def ofList (entries : List (String × α)) : List (String × α) :=
  entries.foldl (fun acc e => put acc e.1 e.2) []

def mapValues (f : α → β) (entries : List (String × α)) : List (String × β) :=
  entries.map fun e => (e.1, f e.2)

@[simp] theorem get?_nil (key : String) : get? ([] : List (String × α)) key = none := rfl

theorem get?_cons (k : String) (v : α) (rest : List (String × α)) (key : String) :
    get? ((k, v) :: rest) key = if k = key then some v else get? rest key := rfl

/-- What was put is found, and nothing else changes. -/
theorem get?_put (entries : List (String × α)) (key : String) (value : α) (k : String) :
    get? (put entries key value) k = if key = k then some value else get? entries k := by
  induction entries with
  | nil => simp [put, get?]
  | cons e rest ih =>
    obtain ⟨k', v'⟩ := e
    by_cases h : k' = key <;> by_cases hk : key = k <;> simp_all [put, get?]

/-- A key that is present keeps its place; a new one goes last. -/
theorem keys_put (entries : List (String × α)) (key : String) (value : α) :
    keys (put entries key value) = if key ∈ keys entries then keys entries else keys entries ++ [key] := by
  induction entries with
  | nil => simp [put, keys]
  | cons e rest ih =>
    obtain ⟨k', v'⟩ := e
    by_cases h : k' = key
    · subst h; simp [put, keys]
    · have h' : ¬ key = k' := fun e => h e.symm
      simp only [keys] at ih
      simp only [put, h, if_false, keys, List.map_cons, List.mem_cons, h', false_or, ih]
      split <;> simp_all

theorem nodup_keys_put {entries : List (String × α)} (h : (keys entries).Nodup) (key : String)
    (value : α) : (keys (put entries key value)).Nodup := by
  rw [keys_put]
  split
  · exact h
  · next hnew =>
    rw [List.nodup_append]
    refine ⟨h, by simp, ?_⟩
    rintro k hk k' hk' rfl
    rw [List.mem_singleton] at hk'
    exact hnew (hk' ▸ hk)

theorem mem_put {entries : List (String × α)} {key : String} {value : α} {e : String × α}
    (h : e ∈ put entries key value) : e = (key, value) ∨ e ∈ entries := by
  induction entries with
  | nil => exact .inl (List.mem_singleton.mp h)
  | cons first rest ih =>
    rw [put] at h
    split at h
    · rcases List.mem_cons.mp h with rfl | hrest
      · exact .inl rfl
      · exact .inr (List.mem_cons_of_mem _ hrest)
    · rcases List.mem_cons.mp h with rfl | hrest
      · exact .inr List.mem_cons_self
      · exact (ih hrest).imp_right (List.mem_cons_of_mem _)

/-! ### Keys -/

@[simp] theorem keys_cons (e : String × α) (rest : List (String × α)) :
    keys (e :: rest) = e.1 :: keys rest := rfl

theorem get?_eq_none_iff (entries : List (String × α)) (key : String) :
    get? entries key = none ↔ key ∉ keys entries := by
  induction entries with
  | nil => simp [keys]
  | cons e rest ih =>
    rw [get?_cons, keys_cons, List.mem_cons, not_or, ← ih]
    by_cases h : e.1 = key
    · simp [h]
    · simp [h, Ne.symm h]

theorem has_iff (entries : List (String × α)) (key : String) :
    has entries key = true ↔ key ∈ keys entries := by
  rw [has, Option.isSome_iff_ne_none, ne_eq, get?_eq_none_iff, Classical.not_not]

theorem mem_of_get? {entries : List (String × α)} {key : String} {value : α}
    (h : get? entries key = some value) : (key, value) ∈ entries := by
  induction entries with
  | nil => cases h
  | cons e rest ih =>
    rw [get?_cons] at h
    by_cases hk : e.1 = key
    · rw [if_pos hk] at h
      cases h
      cases hk
      exact List.mem_cons_self
    · rw [if_neg hk] at h
      exact List.mem_cons_of_mem e (ih h)

/-- Where no key stands twice, every entry is found. -/
theorem get?_of_mem {entries : List (String × α)} (h : (keys entries).Nodup) {key : String}
    {value : α} (hm : (key, value) ∈ entries) : get? entries key = some value := by
  induction entries with
  | nil => cases hm
  | cons e rest ih =>
    rw [keys_cons, List.nodup_cons] at h
    rw [get?_cons]
    rcases List.mem_cons.mp hm with rfl | hrest
    · exact if_pos rfl
    · have hne : e.1 ≠ key := fun hk => h.1 (hk ▸ List.mem_map_of_mem (f := Prod.fst) hrest)
      rw [if_neg hne, ih h.2 hrest]

/-- Where no key stands twice, there is at most one entry under each. -/
theorem filter_key {entries : List (String × α)} (h : (keys entries).Nodup) (key : String) :
    (entries.filter (·.1 = key)).map Prod.snd = (get? entries key).toList := by
  induction entries with
  | nil => rfl
  | cons e rest ih =>
    rw [keys_cons, List.nodup_cons] at h
    rw [List.filter_cons, get?_cons]
    by_cases hk : e.1 = key
    · have hnone := (get?_eq_none_iff rest key).mpr (hk ▸ h.1)
      rw [hnone, Option.toList_none, List.map_eq_nil_iff] at ih
      simp [hk, ih h.2]
    · simpa [hk] using ih h.2

/-! ### Parts, sums and images -/

theorem get?_filter (p : String → Bool) (entries : List (String × α)) (key : String) :
    get? (entries.filter fun e => p e.1) key = if p key then get? entries key else none := by
  induction entries with
  | nil => simp
  | cons e rest ih =>
    rw [List.filter_cons, get?_cons]
    by_cases hk : e.1 = key
    · rw [hk, if_pos rfl]
      cases hp : p key with
      | true => exact if_pos hk
      | false => simpa [hp] using ih
    · rw [if_neg hk, ← ih]
      cases p e.1 with
      | true => exact if_neg hk
      | false => rfl

theorem get?_append (first second : List (String × α)) (key : String) :
    get? (first ++ second) key = (get? first key).or (get? second key) := by
  induction first with
  | nil => simp
  | cons e rest ih =>
    rw [List.cons_append, get?_cons, get?_cons, ih]
    by_cases hk : e.1 = key <;> simp [hk]

theorem get?_map (f : String → α → β) (entries : List (String × α)) (key : String) :
    get? (entries.map fun e => (e.1, f e.1 e.2)) key = (get? entries key).map (f key) := by
  induction entries with
  | nil => rfl
  | cons e rest ih =>
    rw [List.map_cons, get?_cons, get?_cons, ih]
    by_cases hk : e.1 = key
    · simp [← hk]
    · simp [hk]

@[simp] theorem keys_map (f : String → α → β) (entries : List (String × α)) :
    keys (entries.map fun e => (e.1, f e.1 e.2)) = keys entries := by
  rw [keys, List.map_map]
  rfl

theorem keys_append (first second : List (String × α)) :
    keys (first ++ second) = keys first ++ keys second := List.map_append

/-! ### Putting again and dropping -/

theorem put_of_get? {entries : List (String × α)} {key : String} {value : α}
    (h : get? entries key = some value) : put entries key value = entries := by
  induction entries with
  | nil => cases h
  | cons e rest ih =>
    rw [get?_cons] at h
    rw [put]
    split at h
    · next hk =>
      cases h
      rw [if_pos hk, ← hk]
    · next hk => rw [if_neg hk, ih h]

theorem put_put (entries : List (String × α)) (key : String) (first second : α) :
    put (put entries key first) key second = put entries key second := by
  induction entries with
  | nil => simp [put]
  | cons e rest ih => by_cases hk : e.1 = key <;> simp [put, hk, ih]

theorem mapValues_put (f : α → β) (entries : List (String × α)) (key : String) (value : α) :
    mapValues f (put entries key value) = put (mapValues f entries) key (f value) := by
  induction entries with
  | nil => rfl
  | cons e rest ih =>
    rw [mapValues] at ih
    by_cases hk : e.1 = key <;> simp [put, mapValues, hk, ih]

theorem get?_mapValues (f : α → β) (entries : List (String × α)) (key : String) :
    get? (mapValues f entries) key = (get? entries key).map f := get?_map (fun _ => f) entries key

theorem get?_erase_of_ne (entries : List (String × α)) {key k : String} (h : k ≠ key) :
    get? (erase entries key) k = get? entries k := by
  induction entries with
  | nil => rfl
  | cons e rest ih =>
    by_cases hk : e.1 = key
    · rw [erase, if_pos hk, get?_cons, if_neg fun hek => h (hek.symm.trans hk)]
    · rw [erase, if_neg hk, get?_cons, get?_cons, ih]

theorem mem_keys_of_mem_erase {entries : List (String × α)} {key k : String}
    (h : k ∈ keys (erase entries key)) : k ∈ keys entries := by
  induction entries with
  | nil => cases h
  | cons e rest ih =>
    rw [keys_cons, List.mem_cons]
    rw [erase] at h
    split at h
    · exact .inr h
    · exact (List.mem_cons.mp h).imp_right ih

theorem nodup_keys_erase {entries : List (String × α)} (h : (keys entries).Nodup) (key : String) :
    (keys (erase entries key)).Nodup := by
  induction entries with
  | nil => exact h
  | cons e rest ih =>
    rw [keys_cons, List.nodup_cons] at h
    rw [erase]
    split
    · exact h.2
    · exact List.nodup_cons.mpr ⟨fun he => h.1 (mem_keys_of_mem_erase he), ih h.2⟩

/-- Where no key stands twice, a dropped one is gone. -/
theorem get?_erase {entries : List (String × α)} (h : (keys entries).Nodup) (key : String) :
    get? (erase entries key) key = none := by
  induction entries with
  | nil => rfl
  | cons e rest ih =>
    rw [keys_cons, List.nodup_cons] at h
    rw [erase]
    split
    · next hk => exact (get?_eq_none_iff rest key).mpr (hk ▸ h.1)
    · next hk => rw [get?_cons, if_neg hk, ih h.2]

end DataSchema.Entries
