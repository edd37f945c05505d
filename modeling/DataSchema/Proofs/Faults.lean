import DataSchema.Pattern.Reader
import DataSchema.Proofs.PointerText
import DataSchema.Proofs.Strictness
import DataSchema.Proofs.Writing

/-!
Where faults of a schema are.

The document of a schema has a schema that is nested in it under the keywords and keys that the check names
(`Schema.Stands.resolve?_toJson`). An error of the check is of the schema itself, or comes from a schema
directly below it and is seen under the keys of that (`Schema.reports_check`). So the place that is reported
leads in the document to a schema that has the fault (`Schema.reports_faultAt`,
`Validator.compile_error_located`).
-/

namespace DataSchema

namespace Schema

variable {s t : Schema} {key k : String}

/-! ### Members of a document -/

@[simp] theorem get?_member {α : Type} (write : α → Json) (field : Option α) :
    Entries.get? (member key write field) k = if key = k then field.map write else none := by
  cases field <;> simp [member, Entries.get?_cons]

@[simp] theorem get?_flag (b : Bool) :
    Entries.get? (flag key b) k = if key = k ∧ b = true then some (.bool true) else none := by
  cases b <;> simp [flag, Entries.get?_cons]

@[simp] theorem get?_mapMember (ps : List (String × Schema)) : Entries.get? (mapMember key ps) k =
    if key = k ∧ ps ≠ [] then some (.object (entriesJson ps)) else none := by
  cases ps <;> simp [mapMember, entriesJson, Entries.get?_cons]

@[simp] theorem get?_schemaMember (option : Option Schema) :
    Entries.get? (schemaMember key option) k = if key = k then option.map toJson else none := by
  cases option <;> simp [schemaMember, Entries.get?_cons]

@[simp] theorem get?_branchesMember (branches : Option (List Schema)) :
    Entries.get? (branchesMember key branches) k =
      if key = k then branches.map fun ts => .array (listJson ts) else none := by
  cases branches <;> simp [branchesMember, Entries.get?_cons]

@[simp] theorem get?_additionalMember (additional : Additional Schema) :
    Entries.get? (additionalMember additional) k = if "additionalProperties" = k then
      match additional with
      | .unspecified => none
      | .allowed b => some (.bool b)
      | .schema t => some t.toJson
    else none := by
  cases additional <;> simp [additionalMember, Entries.get?_cons]

/-- The keywords of nested schemas. -/
def nestedKeywords : List String :=
  ["properties", "patternProperties", "additionalProperties", "items", "oneOf", "allOf", "anyOf", "not"]

theorem get?_leadingMembers (s : Schema) (hk : k ∈ nestedKeywords) :
    Entries.get? (leadingMembers s) k = none := by
  simp only [nestedKeywords, List.mem_cons, List.not_mem_nil, or_false] at hk
  delta leadingMembers
  rcases hk with rfl | rfl | rfl | rfl | rfl | rfl | rfl | rfl <;>
    simp [Entries.get?_append, get?_member, get?_flag]

theorem get?_metadataMembers (m : Metadata) (hk : k ∈ nestedKeywords) :
    Entries.get? (metadataMembers m) k = none := by
  simp only [nestedKeywords, List.mem_cons, List.not_mem_nil, or_false] at hk
  rcases hk with rfl | rfl | rfl | rfl | rfl | rfl | rfl | rfl <;>
    simp [metadataMembers, Entries.get?_append, get?_member, get?_flag]

/-- What a schema has under a keyword of nested schemas in its document. -/
def nestedValue? (s : Schema) : String → Option Json
  | "properties" => if s.properties = [] then none else some (.object (entriesJson s.properties))
  | "patternProperties" =>
    if s.patternProperties = [] then none else some (.object (entriesJson s.patternProperties))
  | "additionalProperties" =>
    match s.additional with
    | .unspecified => none
    | .allowed b => some (.bool b)
    | .schema t => some t.toJson
  | "items" => s.items.map toJson
  | "oneOf" => s.oneOf.map fun ts => .array (listJson ts)
  | "allOf" => s.allOf.map fun ts => .array (listJson ts)
  | "anyOf" => s.anyOf.map fun ts => .array (listJson ts)
  | "not" => s.not.map toJson
  | _ => none

/-- No other member of the document stands under the keyword. -/
theorem step?_keyword (s : Schema) (hk : k ∈ nestedKeywords) :
    Pointer.step? s.toJson k = s.nestedValue? k := by
  rw [toJson_eq, Pointer.step?, Entries.get?_append, get?_leadingMembers s hk, Option.none_or]
  have hmetadata := get?_metadataMembers s.metadata hk
  simp only [nestedKeywords, List.mem_cons, List.not_mem_nil, or_false] at hk
  rcases hk with rfl | rfl | rfl | rfl | rfl | rfl | rfl | rfl <;>
    simp [nestedMembers, Entries.get?_append, nestedValue?, hmetadata]

/-! ### The schemas below a schema in its document -/

/-- A schema directly below the first one stands in its document under the keys. -/
inductive Stands (s : Schema) : List String → Schema → Prop where
  | property {name : String} {t : Schema} : (name, t) ∈ s.properties → Stands s ["properties", name] t
  | pattern {source : String} {t : Schema} :
    (source, t) ∈ s.patternProperties → Stands s ["patternProperties", source] t
  | additional {t : Schema} : s.additional = .schema t → Stands s ["additionalProperties"] t
  | items {t : Schema} : s.items = some t → Stands s ["items"] t
  | oneOf {ts : List Schema} {i : Nat} {t : Schema} :
    s.oneOf = some ts → ts[i]? = some t → Stands s ["oneOf", toString i] t
  | allOf {ts : List Schema} {i : Nat} {t : Schema} :
    s.allOf = some ts → ts[i]? = some t → Stands s ["allOf", toString i] t
  | anyOf {ts : List Schema} {i : Nat} {t : Schema} :
    s.anyOf = some ts → ts[i]? = some t → Stands s ["anyOf", toString i] t
  | not {t : Schema} : s.not = some t → Stands s ["not"] t

theorem Stands.child {keys : List String} (h : s.Stands keys t) : Child t s := by
  cases h with
  | property ht => exact .property ht
  | pattern ht => exact .pattern ht
  | additional hs => exact .additional hs
  | items hs => exact .items hs
  | oneOf hs ht => exact .oneOf hs (List.mem_of_getElem? ht)
  | allOf hs ht => exact .allOf hs (List.mem_of_getElem? ht)
  | anyOf hs ht => exact .anyOf hs (List.mem_of_getElem? ht)
  | not hs => exact .not hs

theorem entriesJson_eq : ∀ ps : List (String × Schema), entriesJson ps = Entries.mapValues toJson ps
  | [] => by rw [entriesJson, Entries.mapValues, List.map_nil]
  | (name, t) :: rest => by
    rw [entriesJson, entriesJson_eq rest]
    rfl

theorem listJson_eq : ∀ ts : List Schema, listJson ts = ts.map toJson
  | [] => by rw [listJson, List.map_nil]
  | t :: rest => by rw [listJson, listJson_eq rest, List.map_cons]

theorem step?_entriesJson {ps : List (String × Schema)} {name : String} (hkeys : (Entries.keys ps).Nodup)
    (ht : (name, t) ∈ ps) : Pointer.step? (.object (entriesJson ps)) name = some t.toJson := by
  rw [Pointer.step?, entriesJson_eq, Entries.get?_mapValues, Entries.get?_of_mem hkeys ht, Option.map_some]

theorem step?_listJson {ts : List Schema} {i : Nat} (ht : ts[i]? = some t) :
    Pointer.step? (.array (listJson ts)) (toString i) = some t.toJson := by
  rw [Pointer.step?_index, listJson_eq, List.getElem?_map, ht, Option.map_some]

theorem resolve?_keyword {value : Json} (hk : k ∈ nestedKeywords) (hvalue : s.nestedValue? k = some value)
    (rest : List String) : Pointer.resolve? s.toJson (k :: rest) = Pointer.resolve? value rest := by
  rw [Pointer.resolve?, step?_keyword s hk, hvalue, Option.bind_some]

theorem resolve?_nested {value : Json} (hk : k ∈ nestedKeywords) (hvalue : s.nestedValue? k = some value)
    (hstep : Pointer.step? value key = some t.toJson) :
    Pointer.resolve? s.toJson [k, key] = some t.toJson := by
  rw [resolve?_keyword hk hvalue, Pointer.resolve?, hstep, Option.bind_some, Pointer.resolve?]

/-- The keys lead there in the document. -/
theorem Stands.resolve?_toJson {keys : List String} (h : s.Stands keys t)
    (hnames : (Entries.keys s.properties).Nodup) (hpatterns : (Entries.keys s.patternProperties).Nodup) :
    Pointer.resolve? s.toJson keys = some t.toJson := by
  cases h with
  | property ht =>
    exact resolve?_nested (by decide) (if_neg (List.ne_nil_of_mem ht)) (step?_entriesJson hnames ht)
  | pattern ht =>
    exact resolve?_nested (by decide) (if_neg (List.ne_nil_of_mem ht)) (step?_entriesJson hpatterns ht)
  | additional hs => exact resolve?_keyword (by decide) (by rw [nestedValue?, hs]) []
  | items hs => exact resolve?_keyword (by decide) (by rw [nestedValue?, hs, Option.map_some]) []
  | oneOf hs ht =>
    exact resolve?_nested (by decide) (by rw [nestedValue?, hs, Option.map_some]) (step?_listJson ht)
  | allOf hs ht =>
    exact resolve?_nested (by decide) (by rw [nestedValue?, hs, Option.map_some]) (step?_listJson ht)
  | anyOf hs ht =>
    exact resolve?_nested (by decide) (by rw [nestedValue?, hs, Option.map_some]) (step?_listJson ht)
  | not hs => exact resolve?_keyword (by decide) (by rw [nestedValue?, hs, Option.map_some]) []

/-! ### Reported errors -/

/-- Whatever error the check gives meets the condition. -/
def Reports (check : Except SchemaError Unit) (p : SchemaError → Prop) : Prop :=
  ∀ e, check = .error e → p e

variable {strict : Bool} {p : SchemaError → Prop} {first next : Except SchemaError Unit}

theorem reports_ok : Reports (.ok ()) p := nofun

theorem Reports.bind (h : Reports first p) (hnext : Reports next p) :
    Reports (first >>= fun _ => next) p := by
  cases first with
  | ok _ => exact hnext
  | error e => exact fun e' he' => h e' he'

theorem reports_failure {fault : Option SchemaFault} (h : ∀ f, fault = some f → p ⟨[], f⟩) :
    Reports (failure fault) p := by
  cases fault with
  | none => exact reports_ok
  | some f =>
    rintro _ ⟨⟩
    exact h f rfl

theorem Reports.nested {keys : List String} (h : Reports first fun e => p (e.under keys)) :
    Reports (nestedCheck keys first) p := by
  cases first with
  | ok _ => exact reports_ok
  | error e =>
    rintro _ ⟨⟩
    exact h e rfl

variable [Pattern.Engine]

theorem patternFault?_eq_some {source : String} {f : SchemaFault} (h : patternFault? source = some f) :
    Pattern.isValid source = false ∧ f = .invalidPattern source := by
  rw [patternFault?] at h
  split at h
  · cases h
  · next hinvalid => exact ⟨Bool.eq_false_iff.mpr hinvalid, (Option.some.inj h).symm⟩

theorem reports_checkProperties {owner : Schema} : ∀ {ps : List (String × Schema)},
    (∀ e ∈ ps, (strict = true → owner.optionalDefault e.1 e.2 = true → p ⟨[], .defaultOnOptional e.1⟩) ∧
      Reports (e.2.check strict) fun error => p (error.under ["properties", e.1])) →
    Reports (checkProperties strict owner ps) p
  | [], _ => by
    rw [checkProperties]
    exact reports_ok
  | (name, t) :: rest, h => by
    rw [List.forall_mem_cons] at h
    rw [checkProperties]
    refine (reports_failure fun f hf => ?_).bind (h.1.2.nested.bind (reports_checkProperties h.2))
    split at hf
    · next hdefault =>
      cases hf
      rw [Bool.and_eq_true] at hdefault
      exact h.1.1 hdefault.1 hdefault.2
    · cases hf

theorem reports_checkPatterns : ∀ {ps : List (String × Schema)},
    (∀ e ∈ ps, (Pattern.isValid e.1 = false → p ⟨["patternProperties", e.1], .invalidPattern e.1⟩) ∧
      Reports (e.2.check strict) fun error => p (error.under ["patternProperties", e.1])) →
    Reports (checkPatterns strict ps) p
  | [], _ => by
    rw [checkPatterns]
    exact reports_ok
  | (source, t) :: rest, h => by
    rw [List.forall_mem_cons] at h
    rw [checkPatterns]
    refine Reports.bind (Reports.nested (Reports.bind (reports_failure fun f hf => ?_) h.1.2))
      (reports_checkPatterns h.2)
    obtain ⟨hinvalid, rfl⟩ := patternFault?_eq_some hf
    exact h.1.1 hinvalid

theorem reports_checkAdditional {additional : Additional Schema}
    (h : ∀ t, additional = .schema t →
      Reports (t.check strict) fun e => p (e.under ["additionalProperties"])) :
    Reports (checkAdditional strict additional) p := by
  cases additional with
  | schema t =>
    rw [checkAdditional]
    exact (h t rfl).nested
  | unspecified => simp [Reports, checkAdditional]
  | allowed b => simp [Reports, checkAdditional]

theorem reports_checkOption {option : Option Schema}
    (h : ∀ t, option = some t → Reports (t.check strict) fun e => p (e.under [key])) :
    Reports (checkOption strict key option) p := by
  cases option with
  | none =>
    rw [checkOption]
    exact reports_ok
  | some t =>
    rw [checkOption]
    exact (h t rfl).nested

theorem reports_checkList : ∀ {ts : List Schema} (index : Nat),
    (∀ i t, ts[i]? = some t →
      Reports (t.check strict) fun e => p (e.under [key, toString (index + i)])) →
    Reports (checkList strict key index ts) p
  | [], _, _ => by
    rw [checkList]
    exact reports_ok
  | t :: rest, index, h => by
    rw [checkList]
    refine (h 0 t rfl).nested.bind (reports_checkList (index + 1) fun i u hu => ?_)
    have hnext := h (i + 1) u hu
    rwa [Nat.add_comm i 1, ← Nat.add_assoc] at hnext

theorem reports_checkBranches {branches : Option (List Schema)}
    (h : ∀ (ts : List Schema) (i : Nat) (t : Schema), branches = some ts → ts[i]? = some t →
      Reports (t.check strict) fun e => p (e.under [key, toString i])) :
    Reports (checkBranches strict key branches) p := by
  cases branches with
  | none =>
    rw [checkBranches]
    exact reports_ok
  | some ts =>
    rw [checkBranches]
    refine reports_checkList 0 fun i t ht => ?_
    rw [Nat.zero_add]
    exact h ts i t rfl ht

/-- An error is of the schema itself, of a key of its patterned properties, or comes from a schema directly
below it and is seen under the keys of that. -/
theorem reports_check (hown : ∀ f, s.facetFault? strict = some f → p ⟨[], f⟩)
    (hdefaults : strict = true → ∀ e ∈ s.properties, s.optionalDefault e.1 e.2 = true →
      p ⟨[], .defaultOnOptional e.1⟩)
    (hpatterns : ∀ e ∈ s.patternProperties, Pattern.isValid e.1 = false →
      p ⟨["patternProperties", e.1], .invalidPattern e.1⟩)
    (hchildren : ∀ keys t, s.Stands keys t → Reports (t.check strict) fun e => p (e.under keys)) :
    Reports (s.check strict) p := by
  rw [check_eq]
  refine (reports_failure hown).bind (Reports.bind ?_ (Reports.bind ?_ (Reports.bind ?_ (Reports.bind ?_
    (Reports.bind ?_ (Reports.bind ?_ (Reports.bind ?_ ?_)))))))
  · exact reports_checkProperties fun e he =>
      ⟨fun hstrict => hdefaults hstrict e he, hchildren _ _ (.property he)⟩
  · exact reports_checkPatterns fun e he => ⟨hpatterns e he, hchildren _ _ (.pattern he)⟩
  · exact reports_checkAdditional fun t ht => hchildren _ t (.additional ht)
  · exact reports_checkOption fun t ht => hchildren _ t (.items ht)
  · exact reports_checkBranches fun ts i t hs ht => hchildren _ t (.oneOf hs ht)
  · exact reports_checkBranches fun ts i t hs ht => hchildren _ t (.allOf hs ht)
  · exact reports_checkBranches fun ts i t hs ht => hchildren _ t (.anyOf hs ht)
  · exact reports_checkOption fun t ht => hchildren _ t (.not ht)

/-! ### Faults at their places -/

/-- The bounds are there and in the wrong order. -/
def Inverted (s : Schema) : Bounds → Prop
  | .length => ∃ low ∈ s.text.minLength, ∃ high ∈ s.text.maxLength, high < low
  | .number => ∃ low ∈ s.number.minimum, ∃ high ∈ s.number.maximum, high.units < low.units
  | .items => ∃ low ∈ s.array.minItems, ∃ high ∈ s.array.maxItems, high < low
  | .properties => ∃ low ∈ s.object.minProperties, ∃ high ∈ s.object.maxProperties, high < low

/-- The schema itself has the fault. -/
def Exhibits (s : Schema) : SchemaFault → Prop
  | .invalidPattern source => s.text.pattern = some source ∧ Pattern.isValid source = false
  | .unknownFormat name => s.text.format = some name ∧ Format.ofName? name = none
  | .undeclaredRequired name => name ∈ s.requiredNames ∧ s.declares name = false
  | .defaultOnOptional name =>
    s.isRequired name = false ∧ ∃ c, (name, c) ∈ s.properties ∧ c.default.isSome = true
  | .invertedBounds bounds => s.Inverted bounds

omit [Pattern.Engine] in
theorem boundsFault?_eq_some {α : Type} {bounds : Bounds} {greater : α → α → Bool} {low high : Option α}
    {f : SchemaFault} (h : boundsFault? bounds greater low high = some f) :
    f = .invertedBounds bounds ∧ ∃ l ∈ low, ∃ u ∈ high, greater l u = true := by
  rw [boundsFault?.eq_def] at h
  split at h
  · next l u =>
    split at h
    · next hgreater => exact ⟨(Option.some.inj h).symm, l, rfl, u, rfl, hgreater⟩
    · cases h
  · cases h

omit [Pattern.Engine] in
theorem countsFault?_eq_some {bounds : Bounds} {low high : Option UInt64} {f : SchemaFault}
    (h : countsFault? bounds low high = some f) :
    f = .invertedBounds bounds ∧ ∃ l ∈ low, ∃ u ∈ high, u < l := by
  obtain ⟨hf, l, hl, u, hu, hless⟩ := boundsFault?_eq_some h
  exact ⟨hf, l, hl, u, hu, of_decide_eq_true hless⟩

theorem exhibits_of_strictFault? {f : SchemaFault} (h : s.strictFault? = some f) : s.Exhibits f := by
  simp only [strictFault?, Option.orElse_eq_orElse, Option.orElse_eq_or, Option.or_eq_some_iff] at h
  rcases h with h | ⟨-, h | ⟨-, h | ⟨-, h | ⟨-, h⟩⟩⟩⟩
  · obtain ⟨rfl, hbounds⟩ := countsFault?_eq_some h
    exact hbounds
  · obtain ⟨rfl, low, hlow, high, hhigh, hless⟩ := boundsFault?_eq_some h
    exact ⟨low, hlow, high, hhigh, (Binary64.less_eq_true _ _).mp hless⟩
  · obtain ⟨rfl, hbounds⟩ := countsFault?_eq_some h
    exact hbounds
  · obtain ⟨rfl, hbounds⟩ := countsFault?_eq_some h
    exact hbounds
  · obtain ⟨name, hname, rfl⟩ := Option.map_eq_some_iff.mp h
    have hfree := List.find?_some (p := (!s.declares ·)) hname
    exact ⟨List.mem_of_find?_eq_some hname, by simpa using hfree⟩

theorem exhibits_of_facetFault? {f : SchemaFault} (h : s.facetFault? strict = some f) : s.Exhibits f := by
  simp only [facetFault?, Option.orElse_eq_orElse, Option.orElse_eq_or, Option.or_eq_some_iff] at h
  rcases h with h | ⟨-, h⟩
  · obtain ⟨source, hsource, hf⟩ := Option.bind_eq_some_iff.mp h
    obtain ⟨hinvalid, rfl⟩ := patternFault?_eq_some hf
    exact ⟨hsource, hinvalid⟩
  · split at h
    · rcases Option.or_eq_some_iff.mp h with h | ⟨-, h⟩
      · obtain ⟨name, hname, hf⟩ := Option.bind_eq_some_iff.mp h
        rw [formatFault?] at hf
        split at hf
        · cases hf
        · next hunknown =>
          obtain rfl := Option.some.inj hf
          exact ⟨hname, by simpa using hunknown⟩
      · exact exhibits_of_strictFault? h
    · cases h

/-- The keys lead to a schema in the tree that has the fault itself; or they lead to a schema under a key of
patterned properties that is no pattern, and the last of them is that key. -/
def FaultAt (s : Schema) (e : SchemaError) : Prop :=
  ∃ n, Within n s ∧ Pointer.resolve? s.toJson e.path = some n.toJson ∧
    (n.Exhibits e.fault ∨ ∃ before parent source, e.path = before ++ ["patternProperties", source] ∧
      e.fault = .invalidPattern source ∧ Pattern.isValid source = false ∧ Within parent s ∧
      Pointer.resolve? s.toJson before = some parent.toJson ∧ (source, n) ∈ parent.patternProperties)

/-- What is true of a schema under some keys is true of them. -/
theorem FaultAt.under {e : SchemaError} {keys : List String} (h : t.FaultAt e) (ht : Child t s)
    (hkeys : Pointer.resolve? s.toJson keys = some t.toJson) : s.FaultAt (e.under keys) := by
  have hresolve : ∀ rest, Pointer.resolve? s.toJson (keys ++ rest) = Pointer.resolve? t.toJson rest := by
    intro rest
    rw [Pointer.resolve?_append, hkeys, Option.bind_some]
  obtain ⟨n, hn, hpath, hfault⟩ := h
  refine ⟨n, .step ht hn, (hresolve e.path).trans hpath, hfault.imp_right ?_⟩
  rintro ⟨before, parent, source, hbefore, hsource, hinvalid, hparent, hresolved, hmem⟩
  refine ⟨keys ++ before, parent, source, ?_, hsource, hinvalid, .step ht hparent,
    (hresolve before).trans hresolved, hmem⟩
  rw [SchemaError.under, hbefore, List.append_assoc]

theorem reports_faultAt (strict : Bool) (s : Schema) :
    (∀ t, Within t s → (Entries.keys t.properties).Nodup ∧ (Entries.keys t.patternProperties).Nodup) →
      Reports (s.check strict) s.FaultAt := by
  induction s using Schema.induction with
  | step s ih =>
    intro hkeys
    obtain ⟨hnames, hpatterns⟩ := hkeys s (.refl s)
    have hhere : ∀ f, s.Exhibits f → s.FaultAt ⟨[], f⟩ := fun f hf => ⟨s, .refl s, rfl, .inl hf⟩
    refine reports_check (fun f hf => hhere f (exhibits_of_facetFault? hf)) (fun _ e he hdefault => ?_)
      (fun e he hinvalid => ?_) fun keys t ht => ?_
    · rw [optionalDefault, Bool.and_eq_true, Bool.not_eq_true'] at hdefault
      exact hhere _ ⟨hdefault.1, e.2, he, hdefault.2⟩
    · have hstands : s.Stands ["patternProperties", e.1] e.2 := .pattern he
      exact ⟨e.2, .step hstands.child (.refl e.2), hstands.resolve?_toJson hnames hpatterns,
        .inr ⟨[], s, e.1, rfl, rfl, hinvalid, .refl s, rfl, he⟩⟩
    · intro e he
      have htree := fun u hu => hkeys u (.step ht.child hu)
      exact (ih t ht.child htree e he).under ht.child (ht.resolve?_toJson hnames hpatterns)

end Schema

namespace Validator

theorem check_of_compile_error [Pattern.Engine] {s : Schema} {o : Options} {e : SchemaError}
    (h : compile s o = .error e) :
    s.check o.strict = .error e := by
  rw [compile] at h
  split at h
  · cases h
  · next he =>
    cases h
    exact he

/-- Where a schema does not compile, the place that is reported is the sign of the root and a pointer into
the document of the schema. It leads to a schema in the tree that has the very fault that is reported; of
a key of patterned properties that is no pattern it leads to the schema under that key, which is the last
token of the pointer. -/
theorem compile_error_located [Pattern.Engine] {s : Schema} {o : Options} {e : SchemaError}
    (hkeys : ∀ t, Schema.Within t s →
      (Entries.keys t.properties).Nodup ∧ (Entries.keys t.patternProperties).Nodup)
    (h : compile s o = .error e) :
    ∃ pointer n, e.pathText = "#" ++ pointer ∧ Schema.Within n s ∧
      Pointer.lookup? s.toJson pointer = some n.toJson ∧
      (n.Exhibits e.fault ∨ ∃ before parent source,
        Pointer.parse? pointer = some (before ++ ["patternProperties", source]) ∧
          e.fault = .invalidPattern source ∧ Pattern.isValid source = false ∧ Schema.Within parent s ∧
          Pointer.resolve? s.toJson before = some parent.toJson ∧
          (source, n) ∈ parent.patternProperties) := by
  obtain ⟨n, hn, hpath, hfault⟩ := s.reports_faultAt o.strict hkeys e (check_of_compile_error h)
  refine ⟨Pointer.render e.path, n, rfl, hn, (Pointer.lookup?_render _ _).trans hpath,
    hfault.imp_right ?_⟩
  rintro ⟨before, parent, source, hbefore, hrest⟩
  exact ⟨before, parent, source, by rw [Pointer.parse?_render, hbefore], hrest⟩

/-- Addresses by who has them, under a key with a slash; their format has no known name. -/
def addresses : Schema where
  kind := some .object
  properties := [("from/to", Schema.arrayOf { kind := some .string, text := { format := some "e-mail" } })]
  patternProperties := [("^x", Schema.ofKind .boolean)]

/-- The pointer names the format's schema, with the slash escaped. -/
theorem compile_error_addresses :
    ∃ (e : SchemaError) (pointer : String) (n : Schema),
      compile addresses (Options.strictly {} true) = .error e ∧ e.pathText = "#/properties/from~1to/items" ∧
      e.pathText = "#" ++ pointer ∧
      Pointer.lookup? addresses.toJson pointer = some n.toJson ∧ n.text.format = some "e-mail" := by
  have hcompiled : compile addresses (Options.strictly {} true) =
    .error ⟨["properties", "from/to", "items"], .unknownFormat "e-mail"⟩ := rfl
  obtain ⟨pointer, n, hpath, -, hlookup, hfault⟩ :=
    compile_error_located (Schema.of_allWithin 3 (by decide)) hcompiled
  refine ⟨_, pointer, n, hcompiled, by decide, hpath, hlookup, ?_⟩
  rcases hfault with hformat | ⟨before, parent, source, -, hother, -⟩
  · exact hformat.1
  · cases hother

end Validator

end DataSchema
