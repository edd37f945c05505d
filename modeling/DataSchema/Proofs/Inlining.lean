import DataSchema.Proofs.Rebuilding
import Mathlib.Data.List.TakeWhile
import Mathlib.Logic.Relation

/-!
What a document means with its references followed.

`Registry.Inlines` says what a value becomes, without a trail of what is being followed: a derivation is
finite, so none goes round in a circle. It leaves no choice (`Inlines.functional`). To inline a value the
values that it needs are inlined, its parts and the targets of its references; where a value can be inlined,
no chain of needs goes on for ever (`acc_of_inlines`), and so none comes back to where it was.
-/

namespace DataSchema

namespace Reference

theorem ofText_named {name : String} (h : '#' ∉ name.toList) (current : Option String) :
    ofText name current = ⟨some name, ""⟩ := by
  have hdrop : name.toList.dropWhile (· != '#') = [] := by
    rw [List.dropWhile_eq_nil_iff]
    intro c hc
    exact bne_iff_ne.mpr fun hhash => h (hhash ▸ hc)
  simp only [ofText, hdrop]

/-- The first hash separates the two parts. -/
theorem ofText_hash {name : String} (h : '#' ∉ name.toList) (pointer : String)
    (current : Option String) :
    ofText (name ++ "#" ++ pointer) current = ⟨if name = "" then current else some name, pointer⟩ := by
  have hname : ∀ c ∈ name.toList, (c != '#') = true := fun c hc =>
    bne_iff_ne.mpr fun hhash => h (hhash ▸ hc)
  have htext : (name ++ "#" ++ pointer).toList = name.toList ++ '#' :: pointer.toList := by
    rw [String.toList_append, String.toList_append, List.append_assoc]
    rfl
  simp only [ofText, htext, List.takeWhile_append_of_pos hname, List.dropWhile_append_of_pos hname]
  simp

theorem ofText_here (pointer : String) (current : Option String) :
    ofText ("#" ++ pointer) current = ⟨current, pointer⟩ := by
  have h := @ofText_hash "" List.not_mem_nil pointer current
  rwa [String.empty_append, if_pos rfl] at h

/-- Every text is a name, or a name and a pointer with a hash between them. -/
theorem exists_parts (text : String) :
    '#' ∉ text.toList ∨ ∃ name pointer, '#' ∉ name.toList ∧ text = name ++ "#" ++ pointer := by
  by_cases h : '#' ∈ text.toList
  · obtain ⟨before, after, hsplit, hbefore⟩ := List.eq_append_cons_of_mem h
    refine .inr ⟨String.ofList before, String.ofList after, by rwa [String.toList_ofList], ?_⟩
    rw [← String.toList_inj, hsplit]
    simp
  · exact .inl h

end Reference

namespace Registry

variable {r : Registry} {current d : Document} {text : String} {value x y : Json}

/-- From a document, the text of a reference leads to a value in a document. -/
inductive LeadsTo (r : Registry) (current : Document) : String → Document → Json → Prop where
  /-- A pointer into the document itself. -/
  | here {text pointer : String} {value : Json} : text = "#" ++ pointer →
      Pointer.lookup? current.value pointer = some value → LeadsTo r current text current value
  /-- The name of a registered document. -/
  | named {name : String} {whole : Json} : '#' ∉ name.toList → r.get? name = some whole →
      LeadsTo r current name ⟨some name, whole⟩ whole
  /-- A pointer into a registered document. -/
  | within {text name pointer : String} {whole value : Json} : '#' ∉ name.toList → name ≠ "" →
      text = name ++ "#" ++ pointer → r.get? name = some whole →
      Pointer.lookup? whole pointer = some value → LeadsTo r current text ⟨some name, whole⟩ value

/-- What a value becomes with its references followed, read in a document. -/
inductive Inlines (r : Registry) : Document → Json → Json → Prop where
  | scalar {d : Document} {x : Json} : x.isScalar = true → Inlines r d x x
  /-- An array is rebuilt element by element. -/
  | array {d : Document} {xs : List Json} (f : Json → Json) : (∀ x ∈ xs, Inlines r d x (f x)) →
      Inlines r d (.array xs) (.array (xs.map f))
  /-- An object without a reference is rebuilt member by member, without definitions. -/
  | object {d : Document} {ms : List (String × Json)} (f : Json → Json) : referenceText? ms = none →
      (∀ e ∈ keptMembers ms, Inlines r d e.2 (f e.2)) →
      Inlines r d (.object ms) (.object (Entries.mapValues f (keptMembers ms)))
  /-- A reference becomes what its target does, read in the document of the target. -/
  | reference {d d' : Document} {ms : List (String × Json)} {text : String} {value out : Json} :
      referenceText? ms = some text → LeadsTo r d text d' value → Inlines r d' value out →
      (∀ ns, out ≠ .object ns) → Inlines r d (.object ms) out
  /-- If that is an object, the members beside the reference are put over its members. -/
  | overlaid {d d' : Document} {ms out : List (String × Json)} {text : String} {value : Json}
      (f : Json → Json) : referenceText? ms = some text → LeadsTo r d text d' value →
      Inlines r d' value (.object out) → (∀ e ∈ siblings ms, Inlines r d e.2 (f e.2)) →
      Inlines r d (.object ms) (.object (Entries.putAll out (Entries.mapValues f (siblings ms))))

/-! ### No choice -/

/-- A document that has a name is the registered one of this name. -/
def Registered (r : Registry) (d : Document) : Prop :=
  ∀ name, d.name = some name → r.get? name = some d.value

theorem LeadsTo.registered (h : r.LeadsTo current text d value) (hcurrent : r.Registered current) :
    r.Registered d := by
  cases h with
  | here _ _ => exact hcurrent
  | named _ hget =>
    rintro name ⟨rfl⟩
    exact hget
  | within _ _ _ hget _ =>
    rintro name ⟨rfl⟩
    exact hget

/-- The document and the value that a reference in parts leads to, if it leads anywhere. -/
def locate? (r : Registry) (current : Document) (reference : Reference) : Option (Document × Json) := do
  let target ← r.targetDocument? current reference
  let value ← Pointer.lookup? target.value reference.pointer
  return (⟨reference.name, target.value⟩, value)

/-- The document and the value that the text of a reference leads to. -/
def target? (r : Registry) (current : Document) (text : String) : Option (Document × Json) :=
  r.locate? current (Reference.ofText text current.name)

theorem locate?_none (current : Document) (pointer : String) :
    r.locate? current ⟨none, pointer⟩ =
      (Pointer.lookup? current.value pointer).map fun value => (⟨none, current.value⟩, value) := by
  cases hlookup : Pointer.lookup? current.value pointer <;> simp [locate?, targetDocument?, hlookup]

/-- In a registered document it makes no difference whether the document or the registry is asked. -/
theorem locate?_some (hcurrent : r.Registered current) (name pointer : String) :
    r.locate? current ⟨some name, pointer⟩ = (r.get? name).bind fun whole =>
      (Pointer.lookup? whole pointer).map fun value => (⟨some name, whole⟩, value) := by
  have htarget : r.targetDocument? current ⟨some name, pointer⟩ =
      (r.get? name).map fun whole => ⟨some name, whole⟩ := by
    simp only [targetDocument?]
    split
    · next h =>
      rw [hcurrent name h.1.symm, h.1]
      rfl
    · rfl
  rw [locate?, htarget]
  cases r.get? name with
  | none => rfl
  | some whole => cases hlookup : Pointer.lookup? whole pointer <;> simp [hlookup]

theorem target?_here (hcurrent : r.Registered current) (pointer : String) :
    r.target? current ("#" ++ pointer) =
      (Pointer.lookup? current.value pointer).map fun value => (current, value) := by
  obtain ⟨_ | name, whole⟩ := current
  · rw [target?, Reference.ofText_here, locate?_none]
  · rw [target?, Reference.ofText_here, locate?_some hcurrent, hcurrent name rfl]
    rfl

theorem target?_named (hcurrent : r.Registered current) {name : String} (h : '#' ∉ name.toList) :
    r.target? current name = (r.get? name).map fun whole => (⟨some name, whole⟩, whole) := by
  rw [target?, Reference.ofText_named h, locate?_some hcurrent]
  cases r.get? name <;> rfl

theorem target?_within (hcurrent : r.Registered current) {name : String} (h : '#' ∉ name.toList)
    (hne : name ≠ "") (pointer : String) :
    r.target? current (name ++ "#" ++ pointer) = (r.get? name).bind fun whole =>
      (Pointer.lookup? whole pointer).map fun value => (⟨some name, whole⟩, value) := by
  rw [target?, Reference.ofText_hash h, if_neg hne, locate?_some hcurrent]

theorem target?_eq_some_iff (hcurrent : r.Registered current) :
    r.target? current text = some (d, value) ↔ r.LeadsTo current text d value := by
  constructor
  · intro h
    rcases Reference.exists_parts text with hname | ⟨name, pointer, hname, rfl⟩
    · rw [target?_named hcurrent hname] at h
      obtain ⟨whole, hget, h⟩ := Option.map_eq_some_iff.mp h
      cases h
      exact .named hname hget
    · by_cases hempty : name = ""
      · subst hempty
        rw [String.empty_append, target?_here hcurrent] at h
        obtain ⟨v, hlookup, h⟩ := Option.map_eq_some_iff.mp h
        cases h
        exact .here (by rw [String.empty_append]) hlookup
      · rw [target?_within hcurrent hname hempty] at h
        obtain ⟨whole, hget, h⟩ := Option.bind_eq_some_iff.mp h
        obtain ⟨v, hlookup, h⟩ := Option.map_eq_some_iff.mp h
        cases h
        exact .within hname hempty rfl hget hlookup
  · intro h
    cases h with
    | here htext hlookup => rw [htext, target?_here hcurrent, hlookup]; rfl
    | named hname hget => rw [target?_named hcurrent hname, hget]; rfl
    | within hname hne htext hget hlookup =>
      rw [htext, target?_within hcurrent hname hne, hget, Option.bind_some, hlookup]
      rfl

theorem LeadsTo.functional (hcurrent : r.Registered current) {d' : Document} {value' : Json}
    (h : r.LeadsTo current text d value) (h' : r.LeadsTo current text d' value') :
    d = d' ∧ value = value' := by
  have heq := ((target?_eq_some_iff hcurrent).mpr h).symm.trans ((target?_eq_some_iff hcurrent).mpr h')
  exact Prod.mk.inj (Option.some.inj heq)

/-- There is at most one way to inline a value. -/
theorem Inlines.functional {z : Json} (h : r.Inlines d x y) (hd : r.Registered d)
    (h' : r.Inlines d x z) : y = z := by
  induction h generalizing z with
  | scalar hx =>
    cases h' with
    | scalar _ => rfl
    | array _ _ => cases hx
    | object _ _ _ => cases hx
    | reference _ _ _ _ => cases hx
    | overlaid _ _ _ _ _ => cases hx
  | array f _ ih =>
    cases h' with
    | scalar hx => cases hx
    | array g hg => exact congrArg Json.array (List.map_congr_left fun x hx => ih x hx hd (hg x hx))
  | object f hnone _ ih =>
    cases h' with
    | scalar hx => cases hx
    | object g _ hg =>
      exact congrArg Json.object (Entries.mapValues_congr fun e he => ih e he hd (hg e he))
    | reference htext _ _ _ => cases hnone.symm.trans htext
    | overlaid _ htext _ _ _ => cases hnone.symm.trans htext
  | reference htext hleads _ hout ih =>
    cases h' with
    | scalar hx => cases hx
    | object _ hnone _ => cases hnone.symm.trans htext
    | reference htext' hleads' hinlines' _ =>
      cases htext.symm.trans htext'
      obtain ⟨rfl, rfl⟩ := hleads.functional hd hleads'
      exact ih (hleads.registered hd) hinlines'
    | overlaid _ htext' hleads' hinlines' _ =>
      cases htext.symm.trans htext'
      obtain ⟨rfl, rfl⟩ := hleads.functional hd hleads'
      exact absurd (ih (hleads.registered hd) hinlines') (hout _)
  | overlaid f htext hleads _ _ ih ihf =>
    cases h' with
    | scalar hx => cases hx
    | object _ hnone _ => cases hnone.symm.trans htext
    | reference htext' hleads' hinlines' hout =>
      cases htext.symm.trans htext'
      obtain ⟨rfl, rfl⟩ := hleads.functional hd hleads'
      exact absurd (ih (hleads.registered hd) hinlines').symm (hout _)
    | overlaid g htext' hleads' hinlines' hg =>
      cases htext.symm.trans htext'
      obtain ⟨rfl, rfl⟩ := hleads.functional hd hleads'
      cases ih (hleads.registered hd) hinlines'
      rw [Entries.mapValues_congr fun e he => ihf e he hd (hg e he)]

/-! ### What inlining a value needs -/

/-- A value in a document. -/
structure Place where
  document : Document
  value : Json

/-- To inline the first value, the second one is inlined. -/
inductive Needs (r : Registry) : Place → Place → Prop where
  | item {d : Document} {xs : List Json} {x : Json} : x ∈ xs → Needs r ⟨d, .array xs⟩ ⟨d, x⟩
  | member {d : Document} {ms : List (String × Json)} {e : String × Json} :
      referenceText? ms = none → e ∈ keptMembers ms → Needs r ⟨d, .object ms⟩ ⟨d, e.2⟩
  | target {d d' : Document} {ms : List (String × Json)} {text : String} {value : Json} :
      referenceText? ms = some text → LeadsTo r d text d' value →
      Needs r ⟨d, .object ms⟩ ⟨d', value⟩
  /-- What stands beside a reference is needed only where there is an object to put it over. -/
  | sibling {d d' : Document} {ms out : List (String × Json)} {text : String} {value : Json}
      {e : String × Json} : referenceText? ms = some text → LeadsTo r d text d' value →
      Inlines r d' value (.object out) → e ∈ siblings ms → Needs r ⟨d, .object ms⟩ ⟨d, e.2⟩

/-- Inlining the value needs a value that needs itself. -/
def Cyclic (r : Registry) (p : Place) : Prop :=
  ∃ q, Relation.ReflTransGen r.Needs p q ∧ Relation.TransGen r.Needs q q

/-- Where a value can be inlined, its needs come to an end. -/
theorem acc_of_inlines (h : r.Inlines d x y) (hd : r.Registered d) :
    Acc (fun q p => r.Needs p q) ⟨d, x⟩ := by
  induction h with
  | scalar hx =>
    refine ⟨_, fun q hq => ?_⟩
    cases hq <;> cases hx
  | array f _ ih =>
    refine ⟨_, fun q hq => ?_⟩
    cases hq with
    | item hx => exact ih _ hx hd
  | object f hnone _ ih =>
    refine ⟨_, fun q hq => ?_⟩
    cases hq with
    | member _ he => exact ih _ he hd
    | target htext _ => cases hnone.symm.trans htext
    | sibling htext _ _ _ => cases hnone.symm.trans htext
  | reference htext hleads hinlines hout ih =>
    refine ⟨_, fun q hq => ?_⟩
    cases hq with
    | member hnone _ => cases hnone.symm.trans htext
    | target htext' hleads' =>
      cases htext.symm.trans htext'
      obtain ⟨rfl, rfl⟩ := hleads.functional hd hleads'
      exact ih (hleads.registered hd)
    | sibling htext' hleads' hinlines' _ =>
      cases htext.symm.trans htext'
      obtain ⟨rfl, rfl⟩ := hleads.functional hd hleads'
      exact absurd (hinlines.functional (hleads.registered hd) hinlines') (hout _)
  | overlaid f htext hleads _ _ ih ihf =>
    refine ⟨_, fun q hq => ?_⟩
    cases hq with
    | member hnone _ => cases hnone.symm.trans htext
    | target htext' hleads' =>
      cases htext.symm.trans htext'
      obtain ⟨rfl, rfl⟩ := hleads.functional hd hleads'
      exact ih (hleads.registered hd)
    | sibling _ _ _ he => exact ihf _ he hd

theorem not_transGen_self_of_acc {p : Place} (h : Acc (fun q p => r.Needs p q) p) :
    ¬ Relation.TransGen r.Needs p p := by
  intro hcycle
  have hacc := h.transGen
  induction hacc with
  | intro p _ ih => exact ih p (Relation.transGen_swap.mpr hcycle) h hcycle

/-- What can be inlined is not cyclic. -/
theorem not_cyclic_of_inlines (h : r.Inlines d x y) (hd : r.Registered d) : ¬ r.Cyclic ⟨d, x⟩ := by
  rintro ⟨q, hreach, hcycle⟩
  refine not_transGen_self_of_acc ?_ hcycle
  clear hcycle
  induction hreach with
  | refl => exact acc_of_inlines h hd
  | tail _ hneeds ih => exact ih.inv hneeds

end Registry

end DataSchema
