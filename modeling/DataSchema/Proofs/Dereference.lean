import DataSchema.Proofs.Trail

/-!
Following references is inlining.

Dereferencing gives a value exactly if the document can be inlined, and then that value
(`inlineDocument_eq_ok_iff`). It keeps a trail, and takes a key that is on it already for a cycle. That is
right, because a key tells which value is being inlined (`ofText_trailKey`), and the values behind
the keys of the trail all need the one that is at hand (`Leading`).
-/

namespace DataSchema

namespace Reference

/-- A name that is not empty and has no hash in it. -/
def IsPlain (name : String) : Prop := name ≠ "" ∧ '#' ∉ name.toList

instance : DecidablePred IsPlain := fun _ => inferInstanceAs (Decidable (_ ∧ _))

/-- A key tells the reference. -/
theorem ofText_trailKey {reference : Reference} (h : ∀ name ∈ reference.name, IsPlain name) :
    ofText reference.trailKey none = reference := by
  obtain ⟨_ | name, pointer⟩ := reference
  · exact ofText_here pointer none
  · obtain ⟨hne, hhash⟩ := h name rfl
    exact (ofText_hash hhash pointer none).trans (by rw [if_neg hne])

theorem name_eq_none {text : String} {current : Option String} (h : (ofText text current).name = none) :
    current = none := by
  rcases exists_parts text with hname | ⟨name, pointer, hname, rfl⟩
  · rw [ofText_named hname] at h
    cases h
  · rw [ofText_hash hname] at h
    dsimp only at h
    split at h
    · exact h
    · cases h

end Reference

namespace Registry

variable {r : Registry} {root current d : Document} {text : String} {value x y : Json}
  {follow : String → Except RegistryError Json} {steps : Nat} {trail : List String} {p : Place}

/-! ### What is given is inlined -/

theorem inlines_of_rebuild (hfollow : ∀ text out, follow text = .ok out →
      ∃ d' value, r.LeadsTo d text d' value ∧ r.Inlines d' value out)
    (h : rebuild follow x = .ok y) : r.Inlines d x y := by
  induction x using Json.induction generalizing y with
  | scalar x hx =>
    rw [rebuild_scalar hx] at h
    cases h
    exact .scalar hx
  | array xs ih =>
    rw [rebuild] at h
    obtain ⟨ys, hys, rfl⟩ := map_eq_ok_iff.mp h
    obtain ⟨hxs, rfl⟩ := rebuildItems_eq_ok_iff.mp hys
    exact .array _ fun x hx => ih x hx (hxs x hx)
  | object ms ih =>
    rw [rebuild] at h
    cases htext : referenceText? ms with
    | none =>
      simp only [htext] at h
      obtain ⟨ns, hns, rfl⟩ := map_eq_ok_iff.mp h
      obtain ⟨hms, rfl⟩ := rebuildMembers_eq_ok_iff.mp hns
      exact .object _ htext fun e he => ih e (mem_of_mem_keptMembers he) (hms e he)
    | some text =>
      simp only [htext] at h
      obtain ⟨out, hout, h⟩ := bind_eq_ok_iff.mp h
      obtain ⟨d', value, hleads, hinlines⟩ := hfollow text out hout
      split at h
      · obtain ⟨ns, hns, rfl⟩ := map_eq_ok_iff.mp h
        obtain ⟨hms, rfl⟩ := overlay_eq_ok_iff.mp hns
        exact .overlaid _ htext hleads hinlines fun e he => ih e (mem_of_mem_siblings he) (hms e he)
      · next hother =>
        cases h
        exact .reference htext hleads hinlines fun ns hns => hother ns hns

theorem inlines_of_follow : ∀ {steps : Nat} {trail : List String} {current : Document} {text : String}
    {out : Json}, r.Registered current → r.follow steps trail current text = .ok out →
      ∃ d value, r.LeadsTo current text d value ∧ r.Inlines d value out
  | 0, _, _, _, _, _, h => nomatch h
  | steps + 1, trail, current, text, out, hcurrent, h => by
    rw [follow_succ] at h
    cases htarget : r.target? current text with
    | none => simp [htarget] at h
    | some target =>
      obtain ⟨d, value⟩ := target
      have hleads := (target?_eq_some_iff hcurrent).mp htarget
      simp only [htarget] at h
      split at h
      · cases h
      · exact ⟨d, value, hleads, inlines_of_rebuild
          (fun _ _ hout => inlines_of_follow (hleads.registered hcurrent) hout) h⟩

/-! ### What is inlined is given -/

/-- Every name in the registry is plain. -/
def PlainNames (r : Registry) : Prop := ∀ name ∈ Entries.keys r.documents, Reference.IsPlain name

instance (r : Registry) : Decidable r.PlainNames := inferInstanceAs (Decidable (∀ _ ∈ _, _))

/-- A reference that has no name is read in the document given; where any other leads does not depend on
where it is read. -/
theorem target?_eq_locate? (hroot : r.Registered root) (hcurrent : r.Known root current) (text : String) :
    r.target? current text = r.locate? root (Reference.ofText text current.name) := by
  rw [target?]
  generalize hreference : Reference.ofText text current.name = reference
  obtain ⟨_ | name, pointer⟩ := reference
  · rcases hcurrent with rfl | ⟨name, whole, _, rfl⟩
    · rfl
    · cases Reference.name_eq_none (congrArg Reference.name hreference)
  · rw [locate?_some (hcurrent.registered hroot), locate?_some hroot]

/-- A reference that leads anywhere has the name of a registered document, if any. -/
theorem isPlain_of_locate? (hnames : r.PlainNames) (hroot : r.Registered root) {reference : Reference}
    {target : Document × Json} (h : r.locate? root reference = some target) :
    ∀ name ∈ reference.name, Reference.IsPlain name := by
  obtain ⟨_ | name, pointer⟩ := reference
  · exact nofun
  · rintro _ ⟨rfl⟩
    rw [locate?_some hroot] at h
    obtain ⟨whole, hget, _⟩ := Option.bind_eq_some_iff.mp h
    exact hnames name (List.mem_map_of_mem (f := Prod.fst) (Entries.mem_of_get? hget))

/-- Behind each key of the trail there is a value that needs the one at hand. -/
def Leading (r : Registry) (root : Document) (trail : List String) (p : Place) : Prop :=
  ∀ key ∈ trail, ∃ reference d value, (∀ name ∈ reference.name, Reference.IsPlain name) ∧
    reference.trailKey = key ∧ r.locate? root reference = some (d, value) ∧
    Relation.ReflTransGen r.Needs ⟨d, value⟩ p

theorem Leading.needs {q : Place} (h : r.Leading root trail p) (hneeds : r.Needs p q) :
    r.Leading root trail q := by
  intro key hkey
  obtain ⟨reference, d, value, hplain, hsame, hlocate, hreach⟩ := h key hkey
  exact ⟨reference, d, value, hplain, hsame, hlocate, hreach.tail hneeds⟩

/-- A reference is followed to a value that can be inlined: its key is not on the trail, since the value
would need itself. -/
theorem follow_eq_ok (hnames : r.PlainNames) (hroot : r.Registered root) {out : Json}
    (hroom : Room r root.value steps trail) (hleading : r.Leading root trail p)
    (hcurrent : r.Known root current) (htext : text ∈ r.texts root.value)
    (hleads : r.LeadsTo current text d value) (hneeds : r.Needs p ⟨d, value⟩)
    (hinlines : r.Inlines d value out)
    (hout : ∀ {steps trail}, Room r root.value steps trail → r.Leading root trail ⟨d, value⟩ →
      rebuild (r.follow steps trail d) value = .ok out) :
    r.follow steps trail current text = .ok out := by
  have hregistered := hcurrent.registered hroot
  have htarget := (target?_eq_some_iff hregistered).mpr hleads
  have hlocate := (target?_eq_locate? hroot hcurrent text).symm.trans htarget
  have hplain := isPlain_of_locate? hnames hroot hlocate
  obtain ⟨left, rfl⟩ := hroom.exists_step
  have hnew : (Reference.ofText text current.name).trailKey ∉ trail := by
    intro hkey
    obtain ⟨reference, d', value', hplain', hsame, hlocate', hreach⟩ := hleading _ hkey
    -- the key tells the reference, and the reference the value
    have hreference : reference = Reference.ofText text current.name := by
      rw [← Reference.ofText_trailKey hplain', hsame, Reference.ofText_trailKey hplain]
    rw [hreference, hlocate] at hlocate'
    cases hlocate'
    exact not_transGen_self_of_acc (acc_of_inlines hinlines (hleads.registered hregistered))
      (Relation.TransGen.tail' hreach hneeds)
  rw [follow_succ, htarget]
  dsimp only
  rw [if_neg hnew]
  refine hout (hroom.push hnew (trailKey_mem hregistered htext)) fun key hkey => ?_
  rcases List.mem_cons.mp hkey with rfl | hold
  · exact ⟨_, d, value, hplain, rfl, hlocate, .refl⟩
  · exact hleading.needs hneeds key hold

theorem rebuild_of_inlines (hnames : r.PlainNames) (hroot : r.Registered root) (h : r.Inlines d x y) :
    ∀ {steps : Nat} {trail : List String}, r.Known root d → references x ⊆ r.texts root.value →
      Room r root.value steps trail → r.Leading root trail ⟨d, x⟩ →
      rebuild (r.follow steps trail d) x = .ok y := by
  induction h with
  | scalar hx => exact fun _ _ _ _ => rebuild_scalar hx
  | array f _ ih =>
    intro steps trail hd htexts hroom hleading
    rw [rebuild, rebuildItems_of_forall fun x hx => ih x hx hd
      (List.Subset.trans (references_item_subset hx) htexts) hroom (hleading.needs (.item hx))]
    rfl
  | object f hnone _ ih =>
    intro steps trail hd htexts hroom hleading
    rw [rebuild, hnone]
    dsimp only
    rw [rebuildMembers_of_forall fun e he => ih e he hd
      (List.Subset.trans (references_member_subset (mem_of_mem_keptMembers he)) htexts) hroom
      (hleading.needs (.member hnone he))]
    rfl
  | @reference _ _ _ _ _ out htext hleads hinlines hother ih =>
    intro steps trail hd htexts hroom hleading
    have hlisted := htexts (mem_references_of_referenceText? htext)
    have hfollow := follow_eq_ok hnames hroot hroom hleading hd hlisted hleads (.target htext hleads)
      hinlines fun hroom hleading => ih (hleads.known hd) (hleads.references_subset hd) hroom hleading
    rw [rebuild, htext]
    dsimp only
    rw [hfollow]
    cases out with
    | object ns => exact absurd rfl (hother ns)
    | _ => rfl
  | overlaid f htext hleads hinlines _ ih ihf =>
    intro steps trail hd htexts hroom hleading
    have hlisted := htexts (mem_references_of_referenceText? htext)
    have hfollow := follow_eq_ok hnames hroot hroom hleading hd hlisted hleads (.target htext hleads)
      hinlines fun hroom hleading => ih (hleads.known hd) (hleads.references_subset hd) hroom hleading
    rw [rebuild, htext]
    dsimp only
    rw [hfollow]
    refine map_eq_ok_iff.mpr ⟨_, overlay_of_forall fun e he => ?_, rfl⟩
    exact ihf e he hd
      (List.Subset.trans (references_member_subset (mem_of_mem_siblings he)) htexts) hroom
      (hleading.needs (.sibling htext hleads hinlines he))

/-! ### Dereferencing -/

/-- A document has its references followed exactly if it can be inlined, and then to what it is inlined
to. -/
theorem inlineDocument_eq_ok_iff (hnames : r.PlainNames) (hroot : r.Registered root) (out : Json) :
    r.inlineDocument root = .ok out ↔ r.Inlines root root.value out :=
  ⟨inlines_of_rebuild fun _ _ h => inlines_of_follow hroot h,
    fun h => rebuild_of_inlines hnames hroot h (.inl rfl) (List.subset_append_left _ _)
      (Room.start r root.value) nofun⟩

/-- Dereferencing is inlining: the bound on its steps is never felt, and a document gives what it is inlined
to, if it can be inlined. Then no cycle is reported; and a cyclic document ends in an error. -/
theorem dereference_iff_inlines (r : Registry) (hnames : r.PlainNames) (document : Json) :
    (∀ steps, r.stepBound document ≤ steps →
      rebuild (r.follow steps [] ⟨none, document⟩) document = r.dereference document) ∧
    (∀ out, r.dereference document = .ok out ↔ r.Inlines ⟨none, document⟩ document out) ∧
    ((∃ out, r.Inlines ⟨none, document⟩ document out) →
      ∀ text, r.dereference document ≠ .error (.cycle text)) ∧
    (r.Cyclic ⟨⟨none, document⟩, document⟩ → ∃ e, r.dereference document = .error e) := by
  have hroot : r.Registered ⟨none, document⟩ := nofun
  have hiff := inlineDocument_eq_ok_iff hnames hroot
  refine ⟨fun steps hle => rebuild_of_stepBound_le hroot hle, hiff, ?_, ?_⟩
  · rintro ⟨out, hinlines⟩ text herror
    cases ((hiff out).mpr hinlines).symm.trans herror
  · intro hcyclic
    cases hresult : r.dereference document with
    | error e => exact ⟨e, rfl⟩
    | ok out => exact absurd hcyclic (not_cyclic_of_inlines ((hiff out).mp hresult) hroot)

/-- A document that refers into itself. -/
def users : Registry where
  documents := [("user", .object [
    ("properties", .object [("id", .object [("$ref", .string "#/$defs/id")])]),
    ("$defs", .object [("id", .object [("type", .string "integer")])])])]

/-- A user with a title, and the identifier alone. -/
def owned : Json := .object [
  ("owner", .object [("$ref", .string "user"), ("title", .string "Owner")]),
  ("key", .object [("$ref", .string "user#/$defs/id")])]

/-- Both with their references followed. -/
def ownedInlined : Json := .object [
  ("owner", .object [("properties", .object [("id", .object [("type", .string "integer")])]),
    ("title", .string "Owner")]),
  ("key", .object [("type", .string "integer")])]

/-- A document that refers to itself. -/
def circle : Json := .object [("$ref", .string "#")]

/-- Two documents are inlined into a third one, and a circle is none that can be. -/
theorem dereference_users :
    users.Inlines ⟨none, owned⟩ owned ownedInlined ∧ ∃ e, users.dereference circle = .error e := by
  have hnames : users.PlainNames := by decide
  have hleads : users.LeadsTo ⟨none, circle⟩ "#" ⟨none, circle⟩ circle :=
    .here (show "#" = "#" ++ "" from rfl) rfl
  have hneeds : users.Needs ⟨⟨none, circle⟩, circle⟩ ⟨⟨none, circle⟩, circle⟩ := .target rfl hleads
  exact ⟨((dereference_iff_inlines users hnames owned).2.1 _).mp rfl,
    (dereference_iff_inlines users hnames circle).2.2.2 ⟨_, .refl, .single hneeds⟩⟩

end Registry

end DataSchema
