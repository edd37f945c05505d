import DataSchema.Proofs.Reading

/-!
Schemas that are written to documents.

A document is read from its last member to its first, each member giving one field what it says. A field
that is left out of the document is what it is without a member (`ofMembers?_member`, `ofMembers?_flag`),
so the members of a written schema give back one group of fields after another, and in the end the
schema itself (`Schema.ofJson?_toJson`). This is of schemas whose bounds are finite, as those of
`NumberFacets` are; NaN or an infinity would be written as null, and read as no bound.
-/

namespace DataSchema

/-! ### Values of members -/

theorem Read.optional_name (kind : Kind) :
    optional Kind.ofJson? (.string kind.name) = some (some kind) := by
  cases kind <;> decide

theorem Read.optional_countJson (n : UInt64) : optional count? (Schema.countJson n) = some (some n) := by
  show (count? (Schema.countJson n)).map some = some (some n)
  rw [Schema.countJson, count?, if_pos (Int.natCast_nonneg _), Int.toNat_natCast, UInt64.ofNat_toNat,
    Option.map_some]

theorem Read.optional_stringsJson (names : List String) :
    optional strings? (Schema.stringsJson names) = some (some names) := by
  show (strings? (Schema.stringsJson names)).map some = some (some names)
  rw [Option.map_eq_some_iff]
  refine ⟨names, ?_, rfl⟩
  rw [Schema.stringsJson, strings?]
  induction names with
  | nil => rfl
  | cons name rest ih => rw [List.map_cons, List.mapM_cons, ih]; rfl

namespace Schema

variable {key : String} {rest : List (String × Json)} (r : Schema)

/-! ### Facets -/

/-- A member gives the field what it was written from, and left out it leaves the field empty. -/
theorem ofMembers?_member {α : Type} {write : α → Json} (field : Option α)
    (update : Option α → Schema) (hrest : ofMembers? rest = some (update none))
    (hread : ∀ x, readMember? (update none) key (write x) = some (update (some x))) :
    ofMembers? (member key write field ++ rest) = some (update field) := by
  cases field with
  | none => exact hrest
  | some x =>
    rw [member, List.singleton_append, ofMembers?_cons, hrest, Option.bind_some]
    exact hread x

theorem ofMembers?_flag (b : Bool) (update : Bool → Schema)
    (hrest : ofMembers? rest = some (update false))
    (hread : readMember? (update false) key (.bool true) = some (update true)) :
    ofMembers? (flag key b ++ rest) = some (update b) := by
  cases b with
  | false => exact hrest
  | true =>
    rw [flag, if_pos rfl, List.singleton_append, ofMembers?_cons, hrest, Option.bind_some]
    exact hread

/-- A field is read back where its values are, as any value that is not null. -/
theorem ofMembers?_optional {α : Type} {read : Json → Option α} {write : α → Json} (key : String)
    (field : Option α) (update : Option α → Schema)
    (hwrite : ∀ x, Read.optional read (write x) = some (some x))
    (hrest : ofMembers? rest = some (update none))
    (hread : ∀ value, readMember? (update none) key value =
      (Read.optional read value).bind fun x => some (update x)) :
    ofMembers? (member key write field ++ rest) = some (update field) := by
  refine ofMembers?_member field update hrest fun x => ?_
  rw [hread, hwrite, Option.bind_some]

theorem ofMembers?_count (field : Option UInt64) (update : Option UInt64 → Schema)
    (hrest : ofMembers? rest = some (update none))
    (hread : ∀ value, readMember? (update none) key value =
      (Read.optional Read.count? value).bind fun x => some (update x)) :
    ofMembers? (member key countJson field ++ rest) = some (update field) :=
  ofMembers?_optional key field update Read.optional_countJson hrest hread

theorem ofMembers?_text (f : TextFacets) (hrest : ofMembers? rest = some { r with text := {} }) :
    ofMembers? (member "minLength" countJson f.minLength ++ (member "maxLength" countJson f.maxLength ++
      (member "pattern" .string f.pattern ++ (member "format" .string f.format ++ rest)))) =
        some { r with text := f } := by
  refine ofMembers?_count _ (fun x => { r with text := { f with minLength := x } }) ?_ fun _ => rfl
  refine ofMembers?_count _
    (fun x => { r with text := { f with minLength := none, maxLength := x } }) ?_ fun _ => rfl
  refine ofMembers?_member _
    (fun x => { r with text := { format := f.format, pattern := x } }) ?_ fun _ => rfl
  exact ofMembers?_member _ (fun x => { r with text := { format := x } }) hrest fun _ => rfl

theorem ofMembers?_number (f : NumberFacets)
    (hrest : ofMembers? rest = some { r with number := {} }) :
    ofMembers? (member "minimum" .ofDouble f.minimum ++ (member "maximum" .ofDouble f.maximum ++
      (member "exclusiveMinimum" .ofDouble f.exclusiveMinimum ++
      (member "exclusiveMaximum" .ofDouble f.exclusiveMaximum ++
      (member "multipleOf" .ofDouble f.multipleOf ++ rest))))) = some { r with number := f } := by
  refine ofMembers?_member _ (fun x => { r with number := { f with minimum := x } }) ?_ fun _ => rfl
  refine ofMembers?_member _
    (fun x => { r with number := { f with minimum := none, maximum := x } }) ?_ fun _ => rfl
  refine ofMembers?_member _ (fun x => { r with number :=
    { f with minimum := none, maximum := none, exclusiveMinimum := x } }) ?_ fun _ => rfl
  refine ofMembers?_member _ (fun x => { r with number :=
    { multipleOf := f.multipleOf, exclusiveMaximum := x } }) ?_ fun _ => rfl
  exact ofMembers?_member _ (fun x => { r with number := { multipleOf := x } }) hrest fun _ => rfl

theorem ofMembers?_array (f : ArrayFacets) (hrest : ofMembers? rest = some { r with array := {} }) :
    ofMembers? (member "minItems" countJson f.minItems ++ (member "maxItems" countJson f.maxItems ++
      (flag "uniqueItems" f.uniqueItems ++ rest))) = some { r with array := f } := by
  refine ofMembers?_count _ (fun x => { r with array := { f with minItems := x } }) ?_ fun _ => rfl
  refine ofMembers?_count _
    (fun x => { r with array := { uniqueItems := f.uniqueItems, maxItems := x } }) ?_ fun _ => rfl
  exact ofMembers?_flag _ (fun b => { r with array := { uniqueItems := b } }) hrest rfl

theorem ofMembers?_object (f : ObjectFacets)
    (hrest : ofMembers? rest = some { r with object := {} }) :
    ofMembers? (member "minProperties" countJson f.minProperties ++
      (member "maxProperties" countJson f.maxProperties ++ rest)) = some { r with object := f } := by
  refine ofMembers?_count _ (fun x => { r with object := { f with minProperties := x } }) ?_
    fun _ => rfl
  exact ofMembers?_count _ (fun x => { r with object := { maxProperties := x } }) hrest fun _ => rfl

/-- The schema without the facets that are written before its nested schemas. -/
def withoutLeading (s : Schema) : Schema :=
  { s with kind := none, nullable := false, enum := none, const := none, default := none
           text := {}, number := {}, array := {}, object := {} }

theorem ofMembers?_leadingMembers (s : Schema) (hrest : ofMembers? rest = some s.withoutLeading) :
    ofMembers? (leadingMembers s ++ rest) = some s := by
  have hobject := ofMembers?_object s.withoutLeading s.object hrest
  have harray := ofMembers?_array { s.withoutLeading with object := s.object } s.array hobject
  have hnumber := ofMembers?_number
    { s.withoutLeading with object := s.object, array := s.array } s.number harray
  have htext := ofMembers?_text
    { s.withoutLeading with object := s.object, array := s.array, number := s.number } s.text hnumber
  -- the equation that `rw` would make of so long a sum takes long to check
  delta leadingMembers
  simp only [List.append_assoc]
  refine (ofMembers?_optional "type" s.kind (fun x => { s with kind := x }) Read.optional_name ?_
    fun _ => rfl).trans (by cases s; rfl)
  refine ofMembers?_flag _ (fun b => { s with kind := none, nullable := b }) ?_ rfl
  refine ofMembers?_member _ (fun x => { s with kind := none, nullable := false, enum := x }) ?_
    fun _ => rfl
  refine ofMembers?_member _
    (fun x => { s with kind := none, nullable := false, enum := none, const := x }) ?_ fun _ => rfl
  exact ofMembers?_member _ (fun x => { s with
    kind := none, nullable := false, enum := none, const := none, default := x }) htext fun _ => rfl

theorem ofMembers?_metadataMembers (m : Metadata) :
    ofMembers? (metadataMembers m) = some { metadata := m } := by
  rw [← List.append_nil (metadataMembers m)]
  simp only [metadataMembers, List.append_assoc]
  refine ofMembers?_member _ (fun x => { metadata := { m with title := x } }) ?_ fun _ => rfl
  refine ofMembers?_member _ (fun x => { metadata := { m with title := none, description := x } }) ?_
    fun _ => rfl
  refine ofMembers?_member _ (fun x => { metadata :=
    { m with title := none, description := none, examples := x } }) ?_ fun _ => rfl
  refine ofMembers?_flag _ (fun b => { metadata :=
    { writeOnly := m.writeOnly, readOnly := m.readOnly, deprecated := b } }) ?_ rfl
  refine ofMembers?_flag _ (fun b => { metadata := { writeOnly := m.writeOnly, readOnly := b } }) ?_ rfl
  exact ofMembers?_flag _ (fun b => { metadata := { writeOnly := b } }) rfl rfl

/-! ### Nested schemas -/

/-- The document of the schema is read as the schema. -/
def ReadsBack (t : Schema) : Prop := ofJson? t.toJson = some t

/-- The members for the nested schemas, with the required names and the descriptions. -/
def nestedMembers (s : Schema) : List (String × Json) :=
  mapMember "properties" s.properties ++ (member "required" stringsJson s.required ++
    (mapMember "patternProperties" s.patternProperties ++ (additionalMember s.additional ++
    (schemaMember "items" s.items ++ (branchesMember "oneOf" s.oneOf ++
    (branchesMember "allOf" s.allOf ++ (branchesMember "anyOf" s.anyOf ++
    (schemaMember "not" s.not ++ metadataMembers s.metadata))))))))

theorem toJson_eq (s : Schema) : s.toJson = .object (leadingMembers s ++ nestedMembers s) := by
  cases s
  rw [toJson]
  simp only [nestedMembers, List.append_assoc]

theorem ReadsBack.optional? {t : Schema} (h : t.ReadsBack) :
    Schema.optional? t.toJson = some (some t) := by
  rw [ReadsBack, toJson_eq, ofJson?] at h
  rw [toJson_eq, Schema.optional?, h, Option.map_some]

theorem ReadsBack.additional? {t : Schema} (h : t.ReadsBack) :
    Schema.additional? t.toJson = some (.schema t) := by
  rw [ReadsBack, toJson_eq, ofJson?] at h
  rw [toJson_eq, Schema.additional?, h, Option.map_some]

theorem entries?_entriesJson : ∀ {ps : List (String × Schema)}, (∀ e ∈ ps, e.2.ReadsBack) →
    entries? (entriesJson ps) = some ps
  | [], _ => by rw [entriesJson, entries?]
  | (k, t) :: rest, h => by
    rw [List.forall_mem_cons] at h
    have ht : ofJson? t.toJson = some t := h.1
    rw [entriesJson, entries?, ht, entries?_entriesJson h.2]

theorem list?_listJson : ∀ {ts : List Schema}, (∀ t ∈ ts, t.ReadsBack) →
    list? (listJson ts) = some ts
  | [], _ => by rw [listJson, list?]
  | t :: rest, h => by
    rw [List.forall_mem_cons] at h
    have ht : ofJson? t.toJson = some t := h.1
    rw [listJson, list?, ht, list?_listJson h.2]

theorem ofMembers?_mapMember (key : String) {ps : List (String × Schema)}
    (update : List (String × Schema) → Schema) (hps : ∀ e ∈ ps, e.2.ReadsBack)
    (hrest : ofMembers? rest = some (update []))
    (hread : ∀ value, readMember? (update []) key value = (map? value).map update) :
    ofMembers? (mapMember key ps ++ rest) = some (update ps) := by
  cases ps with
  | nil =>
    rw [mapMember]
    exact hrest
  | cons e ps =>
    obtain ⟨k, t⟩ := e
    have hentries := entries?_entriesJson hps
    rw [entriesJson] at hentries
    rw [mapMember, List.singleton_append, ofMembers?_cons, hrest, Option.bind_some, hread, map?,
      hentries, Option.map_some]

theorem ofMembers?_additionalMember {a : Additional Schema} (update : Additional Schema → Schema)
    (ha : ∀ t, a = .schema t → t.ReadsBack) (hrest : ofMembers? rest = some (update .unspecified))
    (hread : ∀ value, readMember? (update .unspecified) "additionalProperties" value =
      (Schema.additional? value).map update) :
    ofMembers? (additionalMember a ++ rest) = some (update a) := by
  cases a with
  | unspecified =>
    rw [additionalMember]
    exact hrest
  | allowed yes =>
    rw [additionalMember, List.singleton_append, ofMembers?_cons, hrest, Option.bind_some, hread,
      Schema.additional?, Option.map_some]
  | schema t =>
    rw [additionalMember, List.singleton_append, ofMembers?_cons, hrest, Option.bind_some, hread,
      (ha t rfl).additional?, Option.map_some]

theorem ofMembers?_schemaMember (key : String) {option : Option Schema}
    (update : Option Schema → Schema) (ht : ∀ t ∈ option, t.ReadsBack)
    (hrest : ofMembers? rest = some (update none))
    (hread : ∀ value, readMember? (update none) key value = (Schema.optional? value).map update) :
    ofMembers? (schemaMember key option ++ rest) = some (update option) := by
  cases option with
  | none =>
    rw [schemaMember]
    exact hrest
  | some t =>
    rw [schemaMember, List.singleton_append, ofMembers?_cons, hrest, Option.bind_some, hread,
      (ht t rfl).optional?, Option.map_some]

theorem ofMembers?_branchesMember (key : String) {branches : Option (List Schema)}
    (update : Option (List Schema) → Schema) (hts : ∀ ts ∈ branches, ∀ t ∈ ts, t.ReadsBack)
    (hrest : ofMembers? rest = some (update none))
    (hread : ∀ value, readMember? (update none) key value = (branches? value).map update) :
    ofMembers? (branchesMember key branches ++ rest) = some (update branches) := by
  cases branches with
  | none =>
    rw [branchesMember]
    exact hrest
  | some ts =>
    rw [branchesMember, List.singleton_append, ofMembers?_cons, hrest, Option.bind_some, hread,
      branches?, list?_listJson (hts ts rfl), Option.map_some, Option.map_some]

/-- The nested schemas are read back one field after another, from the last one to the first. -/
theorem ofMembers?_nestedMembers (s : Schema) (h : ∀ t, Child t s → t.ReadsBack) :
    ofMembers? (nestedMembers s) = some s.withoutLeading := by
  obtain ⟨hp, hpp, had, hit, hone, hall, hany, hno⟩ := forall_child_iff.mp h
  have hmetadata := ofMembers?_metadataMembers s.metadata
  have hnot := ofMembers?_schemaMember "not" (fun x => { metadata := s.metadata, not := x }) hno
    hmetadata fun _ => rfl
  have hanyOf := ofMembers?_branchesMember "anyOf"
    (fun x => { metadata := s.metadata, not := s.not, anyOf := x }) hany hnot fun _ => rfl
  have hallOf := ofMembers?_branchesMember "allOf"
    (fun x => { metadata := s.metadata, not := s.not, anyOf := s.anyOf, allOf := x }) hall hanyOf
    fun _ => rfl
  have honeOf := ofMembers?_branchesMember "oneOf" (fun x =>
    { metadata := s.metadata, not := s.not, anyOf := s.anyOf, allOf := s.allOf, oneOf := x }) hone
    hallOf fun _ => rfl
  have hitems := ofMembers?_schemaMember "items" (fun x => { s.withoutLeading with
    properties := [], required := none, patternProperties := [], additional := .unspecified
    items := x }) hit honeOf fun _ => rfl
  have hadditional := ofMembers?_additionalMember (fun x => { s.withoutLeading with
    properties := [], required := none, patternProperties := [], additional := x }) had hitems
    fun _ => rfl
  have hpatterns := ofMembers?_mapMember "patternProperties" (fun x => { s.withoutLeading with
    properties := [], required := none, patternProperties := x }) hpp hadditional fun _ => rfl
  have hrequired := ofMembers?_optional "required" s.required (fun x => { s.withoutLeading with
    properties := [], required := x }) Read.optional_stringsJson hpatterns fun _ => rfl
  exact ofMembers?_mapMember "properties" (fun x => { s.withoutLeading with properties := x }) hp
    hrequired fun _ => rfl

/-- Every schema is read back from its document, and so is what any document is read as. -/
theorem ofJson?_toJson (s : Schema) (document : Json) : ofJson? s.toJson = some s ∧
    (ofJson? document).bind (fun t => ofJson? t.toJson) = ofJson? document := by
  have hback : ∀ t : Schema, t.ReadsBack := by
    intro t
    induction t using Schema.induction with
    | step t ih =>
      rw [ReadsBack, toJson_eq, ofJson?]
      exact ofMembers?_leadingMembers t (ofMembers?_nestedMembers t ih)
  refine ⟨hback s, ?_⟩
  cases ofJson? document with
  | none => rfl
  | some t => exact hback t

/-- A constant null and an empty list of required names are written, as they are not what is left out. -/
example : ({ const := some .null, required := some [] } : Schema).toJson =
    .object [("const", .null), ("required", .array [])] := by rfl

end Schema

end DataSchema
