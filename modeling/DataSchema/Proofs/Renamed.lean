import DataSchema.Proofs.Objects
import DataSchema.Proofs.Strictness
import DataSchema.Schema.Property
import Mathlib.Data.List.Nodup
import Mathlib.Logic.Basic

/-!
What a schema with a renamed property accepts.

To rename a key of a map is to give its entry another key where it stands (`Entries.rename`), and to rename
it back restores the map. A schema with a renamed property (`Schema.Renames`) judges an object as the schema
before judges the object in which the member is renamed back (`Schema.Renames.reads_iff`). Under the old
name there is no property any more, so a closed schema takes no such member
(`Schema.Renames.not_accepts_old`).
-/

namespace DataSchema

namespace Entries

variable {α : Type} {entries : List (String × α)} {old new : String}

/-- What becomes of a key. -/
def renamed (old new key : String) : String := if key = old then new else key

/-- Gives the entry under a key another key, where it stands. -/
def rename (old new : String) (entries : List (String × α)) : List (String × α) :=
  entries.map fun e => (renamed old new e.1, e.2)

theorem renamed_of_ne {key : String} (h : key ≠ old) : renamed old new key = key := if_neg h

theorem keys_rename : keys (rename old new entries) = (keys entries).map (renamed old new) := by
  rw [keys, rename, List.map_map, keys, List.map_map]
  rfl

/-- Under the new key stands what stood under the old one, which is free now. -/
theorem get?_rename (hnew : new ∉ keys entries) (key : String) : get? (rename old new entries) key =
    if key = new then get? entries old else if key = old then none else get? entries key := by
  induction entries with
  | nil => simp [rename]
  | cons e rest ih =>
    rw [keys_cons, List.mem_cons, not_or] at hnew
    have hrest := ih hnew.2
    rw [rename] at hrest
    rw [rename, List.map_cons, get?_cons, get?_cons, get?_cons, hrest]
    by_cases he : e.1 = old
    · have hold : old ≠ new := fun h => hnew.1 (h.symm.trans he.symm)
      by_cases hkey : key = new
      · simp [renamed, he, hkey]
      · by_cases hk : key = old
        · simp [renamed, he, hk, hold, Ne.symm hold]
        · simp [renamed, he, hkey, hk, Ne.symm hkey, Ne.symm hk]
    · by_cases hkey : key = new
      · simp [renamed, he, hkey, Ne.symm hnew.1]
      · by_cases hk : key = old
        · simp [renamed, he, hk]
        · simp [renamed, he, hkey, hk]

theorem nodup_keys_rename (h : (keys entries).Nodup) (hnew : new ∉ keys entries) :
    (keys (rename old new entries)).Nodup := by
  rw [keys_rename]
  refine h.map_on fun x hx y hy hxy => ?_
  have hne : ∀ {k}, k ∈ keys entries → k ≠ new := fun hk he => hnew (he ▸ hk)
  rw [renamed, renamed] at hxy
  split at hxy <;> split at hxy
  · next hxo hyo => exact hxo.trans hyo.symm
  · exact absurd hxy.symm (hne hy)
  · exact absurd hxy (hne hx)
  · exact hxy

theorem rename_rename (hnew : new ∉ keys entries) : rename new old (rename old new entries) = entries := by
  rw [rename, rename, List.map_map]
  refine (List.map_congr_left fun e he => ?_).trans (List.map_id entries)
  have hne : e.1 ≠ new := fun h => hnew (h ▸ List.mem_map_of_mem he)
  rw [Function.comp_apply, renamed, renamed]
  by_cases hold : e.1 = old
  · rw [if_pos hold, if_pos rfl, ← hold]
    rfl
  · rw [if_neg hold, if_neg hne]
    rfl

theorem modify_rename (f : α → α) (hnew : new ∉ keys entries) :
    modify (rename old new entries) new f = rename old new (modify entries old f) := by
  induction entries with
  | nil => rfl
  | cons e rest ih =>
    rw [keys_cons, List.mem_cons, not_or] at hnew
    have hrest := ih hnew.2
    rw [rename, rename] at hrest
    rw [rename, List.map_cons, modify, modify, hrest]
    by_cases he : e.1 = old
    · simp [rename, renamed, he]
    · simp [rename, renamed, he, Ne.symm hnew.1]

end Entries

namespace Schema

variable {A : Schema → Json → Prop} {s m r : Schema} {old new : String}
  {members : List (String × Json)}

theorem map_renameKey (ps : List (String × Schema)) :
    ps.map (renameKey old new) = Entries.rename old new ps := by
  refine List.map_congr_left fun e _ => ?_
  rw [renameKey, Entries.renamed]
  split <;> rfl

theorem not_mem_keys_of_not_declares {name : String} (h : s.declares name = false) :
    name ∉ Entries.keys s.properties := fun hmem =>
  absurd (((Entries.has_iff _ _).mpr hmem).symm.trans h) (by decide)

theorem ne_of_declares {name other : String} (h : s.declares name = true)
    (hother : s.declares other = false) : name ≠ other := by
  rintro rfl
  exact Bool.false_ne_true (hother.symm.trans h)

theorem not_mem_requiredNames (hrequired : ∀ name ∈ s.requiredNames, s.declares name = true)
    {name : String} (h : s.declares name = false) : name ∉ s.requiredNames :=
  fun hmem => ne_of_declares (hrequired name hmem) h rfl

theorem isSimpleObject_of_rest {t : Schema}
    (h : t = { s with properties := t.properties, required := t.required })
    (hempty : t.properties.isEmpty = s.properties.isEmpty) : t.isSimpleObject = s.isSimpleObject := by
  rw [h, isSimpleObject, isSimpleObject, isObject, isObject]
  simp only [hempty]
  rfl

/-- The second schema is the first one with a property renamed, and required under its new name if it was
under the old one. -/
structure Renames (old new : String) (m r : Schema) : Prop where
  rest : r = { m with properties := r.properties, required := r.required }
  properties : r.properties = Entries.rename old new m.properties
  required : ∀ name, name ∈ r.requiredNames ↔
    (name ∈ m.requiredNames ∧ name ≠ old) ∨ (name = new ∧ old ∈ m.requiredNames)

namespace Renames

variable {e : String × Json}

theorem patterns (h : Renames old new m r) : r.patternProperties = m.patternProperties := by
  rw [h.rest]

section Members

variable (h : Renames old new m r) (hnew : m.declares new = false)

include h hnew

theorem get? (key : String) : Entries.get? r.properties key = if key = new then
    Entries.get? m.properties old else if key = old then none else Entries.get? m.properties key := by
  rw [h.properties]
  exact Entries.get?_rename (not_mem_keys_of_not_declares hnew) key

variable [Pattern.Engine]

/-- A member under another key than the old name is judged as it would be with the renaming taken back. -/
theorem admits_iff (hkeys : (Entries.keys m.properties).Nodup) (hold : m.declares old = true)
    (he : e.1 ≠ old) : r.Admits A e ↔ m.Admits A (Entries.renamed new old e.1, e.2) := by
  have hkeys' : (Entries.keys r.properties).Nodup := by
    rw [h.properties]
    exact Entries.nodup_keys_rename hkeys (not_mem_keys_of_not_declares hnew)
  have hget := h.get? hnew e.1
  by_cases hname : e.1 = new
  · obtain ⟨c, hc⟩ := Option.isSome_iff_exists.mp hold
    rw [if_pos hname, hc] at hget
    rw [Entries.renamed, if_pos hname, admits_iff_of_declared hkeys' hget, admits_iff_of_declared hkeys hc]
  · rw [if_neg hname, if_neg he] at hget
    rw [Entries.renamed_of_ne hname]
    cases hc : Entries.get? m.properties e.1 with
    | some c =>
      rw [hc] at hget
      rw [admits_iff_of_declared hkeys' hget, admits_iff_of_declared hkeys hc]
    | none =>
      rw [hc] at hget
      rw [admits_iff_of_undeclared (not_declares_of_get? hget),
        admits_iff_of_undeclared (not_declares_of_get? hc), h.rest]
      rfl

/-- A closed schema takes no member under the old name any more, if it has no pattern for it. -/
theorem not_admits_old (hne : old ≠ new) (hclosed : m.isOpen = false) (hmatches : m.matchesKey old = false)
    (he : e.1 = old) : ¬ r.Admits A e := by
  have hfree : r.declares e.1 = false := by
    refine not_declares_of_get? ?_
    rw [h.get? hnew, he, if_neg hne, if_pos rfl]
  have hclosed' : r.isOpen = false := by
    rw [h.rest]
    exact hclosed
  have hunmatched : r.matchesKey e.1 = false := by
    rw [matchesKey, h.patterns, he]
    exact hmatches
  rw [admits_iff_of_undeclared hfree, hclosed', hunmatched]
  simp

omit [Pattern.Engine] in
/-- The required members are there, as they are with the renaming taken back. -/
theorem forall_has_iff (hrequired : ∀ name ∈ m.requiredNames, m.declares name = true)
    (hmembers : old ∉ Entries.keys members) :
    (∀ name ∈ r.requiredNames, Entries.has members name = true) ↔
      ∀ name ∈ m.requiredNames, Entries.has (Entries.rename new old members) name = true := by
  have hnever := not_mem_requiredNames hrequired hnew
  have hhas : ∀ name ∈ m.requiredNames, Entries.has (Entries.rename new old members) name =
      Entries.has members (Entries.renamed old new name) := by
    intro name hname
    have hne : name ≠ new := fun hn => hnever (hn ▸ hname)
    rw [Entries.has, Entries.get?_rename hmembers, if_neg hne, Entries.renamed, Entries.has]
    split <;> rfl
  constructor
  · intro hall name hname
    rw [hhas name hname, Entries.renamed]
    refine hall _ ((h.required _).mpr ?_)
    split
    · next hn => exact .inr ⟨rfl, hn ▸ hname⟩
    · next hn => exact .inl ⟨hname, hn⟩
  · intro hall name hname
    rcases (h.required name).mp hname with ⟨hmem, hne⟩ | ⟨rfl, hmem⟩
    · rw [← Entries.renamed_of_ne hne, ← hhas name hmem]
      exact hall name hmem
    · have hthere := hall old hmem
      rwa [hhas old hmem, Entries.renamed, if_pos rfl] at hthere

end Members

section Objects

variable (h : Renames old new m r) (hsimple : m.isSimpleObject = true) (hnew : m.declares new = false)

include h

theorem isSimpleObject (hsimple : m.isSimpleObject = true) : r.isSimpleObject = true := by
  rw [isSimpleObject_of_rest h.rest, hsimple]
  rw [h.properties, Entries.rename, List.isEmpty_map]

include hsimple hnew

variable [Pattern.Engine]

/-- An object without the old name is judged as it would be with the renaming taken back. -/
theorem reads_iff (hA : ReadsParts A) (hconst : m.const = none) (henum : m.enum = none)
    (hkeys : (Entries.keys m.properties).Nodup) (hold : m.declares old = true)
    (hrequired : ∀ name ∈ m.requiredNames, m.declares name = true)
    (hmembers : (Entries.keys members).Nodup) (habsent : old ∉ Entries.keys members) :
    A r (.object members) ↔ A m (.object (Entries.rename new old members)) := by
  obtain ⟨hobject, -, hcombined⟩ := isSimpleObject_iff.mp hsimple
  obtain ⟨hobject', -, hcombined'⟩ := isSimpleObject_iff.mp (h.isSimpleObject hsimple)
  have hvalues : r.const = none ∧ r.enum = none := by
    rw [h.rest]
    exact ⟨hconst, henum⟩
  have hcounts : r.object.Hold members ↔ m.object.Hold (Entries.rename new old members) := by
    have hfacets : r.object = m.object := by rw [h.rest]
    rw [hfacets]
    exact ObjectFacets.hold_congr (List.length_map _).symm
  have hadmits : (∀ e ∈ members, r.Admits A e) ↔
      ∀ e ∈ Entries.rename new old members, m.Admits A e := by
    rw [Entries.rename, List.forall_mem_map]
    refine forall₂_congr fun e he => h.admits_iff hnew hkeys hold fun hname => habsent ?_
    exact hname ▸ List.mem_map_of_mem he
  rw [hA.iff_admits (kind_eq_object hobject') hcombined' hmembers,
    hA.iff_admits (kind_eq_object hobject) hcombined (Entries.nodup_keys_rename hmembers habsent),
    hvalues.1, hvalues.2, hconst, henum, h.forall_has_iff hnew hrequired habsent, hcounts, hadmits]
  simp

/-- No object with the old name is accepted, if no pattern is there for it. -/
theorem not_accepts_old (hne : old ≠ new) (hmatches : m.matchesKey old = false)
    (hmembers : (Entries.keys members).Nodup) (hthere : old ∈ Entries.keys members) :
    ¬ r.Accepts (.object members) := by
  obtain ⟨-, hclosed, -⟩ := isSimpleObject_iff.mp hsimple
  obtain ⟨hobject', -, hcombined'⟩ := isSimpleObject_iff.mp (h.isSimpleObject hsimple)
  rw [readsParts_accepts.iff_admits (kind_eq_object hobject') hcombined' hmembers]
  rintro ⟨-, -, -, -, hadmits⟩
  obtain ⟨e, he, hname⟩ := List.mem_map.mp hthere
  exact h.not_admits_old hnew hne hclosed hmatches hname (hadmits e he)

end Objects

/-- The schema with the renamed property passes the check where the schema before does, if what this one
requires is declared. -/
theorem check [Pattern.Engine] (h : Renames old new m r) {strict : Bool} (hm : m.check strict = .ok ())
    (hrequired : ∀ name ∈ m.requiredNames, m.declares name = true) (hold : m.declares old = true) :
    r.check strict = .ok () := by
  obtain ⟨hsound, hchildren⟩ := (check_eq_ok_iff m).mp hm
  have hdeclares : ∀ name, m.declares name = true → r.declares (Entries.renamed old new name) = true := by
    intro name hname
    rw [declares, Entries.has_iff] at hname
    rw [declares, Entries.has_iff, h.properties, Entries.keys_rename]
    exact List.mem_map_of_mem hname
  refine check_of_properties hm h.rest ?_ fun hstrict => ⟨fun name hname => ?_, ?_⟩
  · rw [h.properties, Entries.rename, List.forall_mem_map]
    exact fun e he => hchildren e.2 (.property he)
  · rcases (h.required name).mp hname with ⟨hmem, hne⟩ | ⟨rfl, -⟩
    · have hthere := hdeclares name (hrequired name hmem)
      rwa [Entries.renamed_of_ne hne] at hthere
    · have hthere := hdeclares old hold
      rwa [Entries.renamed, if_pos rfl] at hthere
  · rw [h.properties, Entries.rename, List.forall_mem_map]
    intro e he hfree
    refine (((sound_iff strict).mp hsound).2 hstrict).default_eq_none (e := e) he fun hmem => ?_
    rw [h.required, Entries.renamed] at hfree
    by_cases hname : e.1 = old
    · exact hfree (.inr ⟨if_pos hname, hname ▸ hmem⟩)
    · exact hfree (.inl (by rw [if_neg hname]; exact ⟨hmem, hname⟩))

end Renames

end Schema

end DataSchema
