import DataSchema.Proofs.Reading
import DataSchema.Proofs.Rebuilding

/-!
Loading documents without references.

In such a document nothing is followed, and every member with the name of definitions is dropped, at any
depth: the schema is read from what is left (`Registry.loadSchema_of_refersNowhere`). Where these names
stand only beside keywords, that is the schema of the document (`Schema.ofJson?_withoutDefinitions`).
Among properties, or in a constant, it is not (`Registry.loadSchema_ne_readDocument`).
-/

namespace DataSchema

namespace Schema

/-! ### Definitions beside keywords -/

open Registry (isDefinitions definesNothing withoutDefinitions itemsWithoutDefinitions
  membersWithoutDefinitions)

/-- Keywords whose value is taken over as it is, or compared as a whole. -/
def wholeValued : List String := ["type", "enum", "const", "default", "examples"]

mutual

/-- Do definitions stand only beside the keywords of the document and of the schemas in it, not among the
names in a map of schemas and not in data? -/
def definitionsApart : Json → Bool
  | .object ms => membersApart ms
  | _ => true

def membersApart : List (String × Json) → Bool
  | [] => true
  | (key, value) :: rest =>
    (match key with
      | "properties" | "patternProperties" => namesApart value
      | "additionalProperties" | "items" | "not" => definitionsApart value
      | "oneOf" | "allOf" | "anyOf" => branchesApart value
      | key => !wholeValued.contains key || value.everyObject definesNothing) &&
    membersApart rest

/-- In a map of schemas. -/
def namesApart : Json → Bool
  | .object ms => definesNothing ms && entriesApart ms
  | _ => true

def entriesApart : List (String × Json) → Bool
  | [] => true
  | (_, value) :: rest => definitionsApart value && entriesApart rest

def branchesApart : Json → Bool
  | .array xs => listApart xs
  | _ => true

def listApart : List Json → Bool
  | [] => true
  | value :: rest => definitionsApart value && listApart rest

end

/-- The test of one member. -/
def memberApart (key : String) (value : Json) : Bool :=
  match key with
  | "properties" | "patternProperties" => namesApart value
  | "additionalProperties" | "items" | "not" => definitionsApart value
  | "oneOf" | "allOf" | "anyOf" => branchesApart value
  | key => !wholeValued.contains key || value.everyObject definesNothing

theorem membersApart_cons (key : String) (value : Json) (rest : List (String × Json)) :
    membersApart ((key, value) :: rest) = (memberApart key value && membersApart rest) := rfl

/-! ### Reading what is left -/

variable {α : Type} {value : Json}

/-- A reader that takes neither arrays nor objects sees no difference. -/
theorem read_withoutDefinitions (read : Json → Option α) (harray : ∀ xs, read (.array xs) = none)
    (hobject : ∀ ms, read (.object ms) = none) (value : Json) :
    read (withoutDefinitions value) = read value := by
  cases value with
  | array xs => rw [withoutDefinitions, harray, harray]
  | object ms => rw [withoutDefinitions, hobject, hobject]
  | _ => rfl

theorem strings?_withoutDefinitions (value : Json) :
    Read.strings? (withoutDefinitions value) = Read.strings? value := by
  cases value with
  | array xs =>
    rw [withoutDefinitions, Read.strings?, Read.strings?]
    induction xs with
    | nil => rfl
    | cons x rest ih =>
      rw [itemsWithoutDefinitions, List.mapM_cons, List.mapM_cons, ih,
        read_withoutDefinitions Read.string? (fun _ => rfl) (fun _ => rfl)]
  | _ => rfl

theorem optional_withoutDefinitions {read : Json → Option α}
    (h : read (withoutDefinitions value) = read value) :
    Read.optional read (withoutDefinitions value) = Read.optional read value := by
  cases value with
  | array xs => exact congrArg (Option.map some) h
  | object ms => exact congrArg (Option.map some) h
  | _ => rfl

/-- The value of any other keyword is read as a scalar, a list of texts, or not at all. -/
theorem readFacet?_withoutDefinitions (s : Schema) {key : String} (h : key ∉ wholeValued) :
    s.readFacet? key (withoutDefinitions value) = s.readFacet? key value := by
  have hbool := read_withoutDefinitions Read.bool? (fun _ => rfl) (fun _ => rfl) value
  have hcount := optional_withoutDefinitions
    (read_withoutDefinitions Read.count? (fun _ => rfl) (fun _ => rfl) value)
  have hdouble := optional_withoutDefinitions
    (read_withoutDefinitions Read.double? (fun _ => rfl) (fun _ => rfl) value)
  have hstring := optional_withoutDefinitions
    (read_withoutDefinitions Read.string? (fun _ => rfl) (fun _ => rfl) value)
  have hstrings := optional_withoutDefinitions (strings?_withoutDefinitions value)
  rw [readFacet?.eq_def, readFacet?.eq_def]
  split
  all_goals first
    | rfl
    | exact absurd (by decide) h
    | simp only [hbool, hcount, hdouble, hstring, hstrings]

theorem readMember?_definitions (s : Schema) {key : String} (value : Json)
    (h : isDefinitions key = true) : s.readMember? key value = some s := by
  rw [isDefinitions, Bool.or_eq_true, beq_iff_eq, beq_iff_eq] at h
  rcases h with rfl | rfl <;> rfl

theorem additional?_withoutDefinitions (h : ofJson? (withoutDefinitions value) = ofJson? value) :
    additional? (withoutDefinitions value) = additional? value := by
  cases value with
  | object ms => exact congrArg (Option.map Additional.schema) h
  | _ => rfl

theorem optional?_withoutDefinitions (h : ofJson? (withoutDefinitions value) = ofJson? value) :
    optional? (withoutDefinitions value) = optional? value := by
  cases value with
  | object ms => exact congrArg (Option.map some) h
  | _ => rfl

/-- A member is read alike if what may be in it is. -/
theorem readMember?_withoutDefinitions (s : Schema) {key : String} (h : memberApart key value = true)
    (hwhole : definitionsApart value = true → ofJson? (withoutDefinitions value) = ofJson? value)
    (hnames : namesApart value = true → map? (withoutDefinitions value) = map? value)
    (hbranches : branchesApart value = true →
      branches? (withoutDefinitions value) = branches? value) :
    s.readMember? key (withoutDefinitions value) = s.readMember? key value := by
  rw [readMember?.eq_def, readMember?.eq_def]
  split
  · rw [hnames h]
  · rw [hnames h]
  · rw [additional?_withoutDefinitions (hwhole h)]
  · rw [optional?_withoutDefinitions (hwhole h)]
  · rw [hbranches h]
  · rw [hbranches h]
  · rw [hbranches h]
  · rw [optional?_withoutDefinitions (hwhole h)]
  · by_cases hkey : key ∈ wholeValued
    · have hdata : value.everyObject definesNothing = true := by
        rw [memberApart.eq_def] at h
        split at h
        all_goals first
          | contradiction
          | exact (Bool.or_eq_true _ _).mp h |>.resolve_left (by simpa using hkey)
      rw [Registry.withoutDefinitions_eq_self hdata]
    · exact readFacet?_withoutDefinitions s hkey

mutual

/-- Definitions beside keywords do not count for the schema that is read. -/
theorem ofJson?_withoutDefinitions : ∀ {value : Json}, definitionsApart value = true →
    ofJson? (withoutDefinitions value) = ofJson? value
  | .null, _ => rfl
  | .bool _, _ => rfl
  | .number _, _ => rfl
  | .string _, _ => rfl
  | .array _, _ => rfl
  | .object ms, h => by
    rw [definitionsApart] at h
    rw [withoutDefinitions, ofJson?, ofJson?, ofMembers?_withoutDefinitions h]

theorem ofMembers?_withoutDefinitions : ∀ {ms : List (String × Json)}, membersApart ms = true →
    ofMembers? (membersWithoutDefinitions ms) = ofMembers? ms
  | [], _ => rfl
  | (key, value) :: rest, h => by
    rw [membersApart_cons, Bool.and_eq_true] at h
    have hrest := ofMembers?_withoutDefinitions h.2
    rw [membersWithoutDefinitions, ofMembers?_cons]
    split
    · next hkey => rw [hrest, Option.bind_congr fun s _ => readMember?_definitions s value hkey,
        Option.bind_fun_some]
    · rw [ofMembers?_cons, hrest, Option.bind_congr fun s _ => readMember?_withoutDefinitions s h.1
        ofJson?_withoutDefinitions map?_withoutDefinitions branches?_withoutDefinitions]

theorem map?_withoutDefinitions : ∀ {value : Json}, namesApart value = true →
    map? (withoutDefinitions value) = map? value
  | .null, _ => rfl
  | .bool _, _ => rfl
  | .number _, _ => rfl
  | .string _, _ => rfl
  | .array _, _ => rfl
  | .object ms, h => by
    rw [namesApart, Bool.and_eq_true] at h
    rw [withoutDefinitions, map?, map?, entries?_withoutDefinitions h.1 h.2]

theorem entries?_withoutDefinitions : ∀ {ms : List (String × Json)}, definesNothing ms = true →
    entriesApart ms = true → entries? (membersWithoutDefinitions ms) = entries? ms
  | [], _, _ => rfl
  | (key, value) :: rest, hms, h => by
    obtain ⟨hkey, hkeys⟩ := (Bool.and_eq_true _ _).mp hms
    rw [entriesApart, Bool.and_eq_true] at h
    rw [membersWithoutDefinitions, if_neg (by simpa using hkey), entries?, entries?,
      ofJson?_withoutDefinitions h.1, entries?_withoutDefinitions hkeys h.2]

theorem branches?_withoutDefinitions : ∀ {value : Json}, branchesApart value = true →
    branches? (withoutDefinitions value) = branches? value
  | .null, _ => rfl
  | .bool _, _ => rfl
  | .number _, _ => rfl
  | .string _, _ => rfl
  | .object _, _ => rfl
  | .array xs, h => by
    rw [branchesApart] at h
    rw [withoutDefinitions, branches?, branches?, list?_withoutDefinitions h]

theorem list?_withoutDefinitions : ∀ {xs : List Json}, listApart xs = true →
    list? (itemsWithoutDefinitions xs) = list? xs
  | [], _ => rfl
  | value :: rest, h => by
    rw [listApart, Bool.and_eq_true] at h
    rw [itemsWithoutDefinitions, list?, list?, ofJson?_withoutDefinitions h.1,
      list?_withoutDefinitions h.2]

end

end Schema

namespace Registry

/-! ### Loading -/

variable {r : Registry} {name : String} {document : Json}

/-- The schema that a document is read as. -/
def readDocument (document : Json) : Except RegistryError Schema :=
  match Schema.ofJson? document with
  | some s => .ok s
  | none => .error (.schema .invalidDocument)

/-- A registered document without references is loaded by reading what is left without the definitions;
where these stand only beside keywords, by reading the document. -/
theorem loadSchema_of_refersNowhere (hget : r.get? name = some document)
    (hnowhere : document.everyObject refersNowhere = true) :
    r.loadSchema name = readDocument (withoutDefinitions document) ∧
      (Schema.definitionsApart document = true → r.loadSchema name = readDocument document) := by
  have hload : r.loadSchema name = readDocument (withoutDefinitions document) := by
    rw [loadSchema, hget]
    dsimp only
    rw [inlineDocument, rebuild_of_refersNowhere _ hnowhere]
    rfl
  refine ⟨hload, fun hapart => ?_⟩
  rw [hload, readDocument, readDocument, Schema.ofJson?_withoutDefinitions hapart]

/-- A word with its meaning; how meanings look is defined beside the keywords. -/
def word : Json := .object [("type", .string "object"),
  ("definitions", .object [("meaning", .object [("type", .string "string")])]),
  ("properties", .object [("meaning", .object [("type", .string "string")])])]

/-- A document with a property that has the name of definitions. -/
def glossary : Json := .object [("type", .string "object"),
  ("properties", .object [("definitions", .object [("type", .string "string")])])]

/-- A document with that name in its constant. -/
def emptyGlossary : Json := .object [("const", .object [("definitions", .array [])])]

def dictionary : Registry where
  documents := [("word", word), ("glossary", glossary), ("empty", emptyGlossary)]

theorem loadSchema_word : dictionary.loadSchema "word" = readDocument (withoutDefinitions word) ∧
    dictionary.loadSchema "word" = readDocument word := by
  have hget : dictionary.get? "word" = some word := rfl
  have hload := loadSchema_of_refersNowhere hget rfl
  exact ⟨hload.1, hload.2 rfl⟩

/-- A document without references need not be loaded as what it is read as: a property is lost, and a
constant changed. -/
theorem loadSchema_ne_readDocument :
    (glossary.everyObject refersNowhere = true ∧
      dictionary.loadSchema "glossary" = .ok { kind := some .object } ∧
      readDocument glossary =
        .ok { kind := some .object, properties := [("definitions", { kind := some .string })] } ∧
      dictionary.loadSchema "glossary" ≠ readDocument glossary) ∧
    (emptyGlossary.everyObject refersNowhere = true ∧
      dictionary.loadSchema "empty" = .ok { const := some (.object []) } ∧
      readDocument emptyGlossary = .ok { const := some (.object [("definitions", .array [])]) }) := by
  refine ⟨⟨rfl, rfl, rfl, fun h => ?_⟩, rfl, rfl, rfl⟩
  have hproperties : dictionary.loadSchema "glossary" = .ok { kind := some .object } := rfl
  have hread : readDocument glossary =
    .ok { kind := some .object, properties := [("definitions", { kind := some .string })] } := rfl
  rw [hproperties, hread] at h
  simp at h

end Registry

end DataSchema
