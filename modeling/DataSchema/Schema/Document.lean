import DataSchema.Json.Fields
import DataSchema.Schema.Basic

/-!
Schemas as JSON documents.

A document is an object with a member for each keyword. Members under other keys are ignored. Null
stands for an absent keyword where the keyword's value is optional; for flags, maps and the list of
values it is refused, and for the constant and the default it is the value null. `Schema.toJson` writes
the keywords in a fixed order and leaves out what is absent, and `Schema.ofJson?` reads that back.
-/

namespace DataSchema

/-- A kind by its name, or as an object with the name as its only key and null under it. -/
def Kind.ofJson? : Json → Option Kind
  | .string s => Kind.ofName? s
  | .object [(s, .null)] => Kind.ofName? s
  | _ => none

/-- Constraints on arrays by themselves, as an object or as an array of the three values. -/
def ArrayFacets.ofJson? (value : Json) : Option ArrayFacets := do
  let fields ← Read.fields? ["minItems", "maxItems", "uniqueItems"] value
  return {
    minItems := ← Read.field fields "minItems" none (Read.optional Read.count?)
    maxItems := ← Read.field fields "maxItems" none (Read.optional Read.count?)
    uniqueItems := ← Read.field fields "uniqueItems" false Read.bool? }

namespace Schema

/-! ### Reading -/

/-- Takes a member whose value holds no nested schema; other keys change nothing. -/
def readFacet? (s : Schema) (key : String) (value : Json) : Option Schema :=
  match key with
  | "type" => do return { s with kind := ← Read.optional Kind.ofJson? value }
  | "nullable" => do return { s with nullable := ← Read.bool? value }
  | "enum" => do return { s with enum := some (← Read.array? value) }
  | "const" => some { s with const := some value }
  | "default" => some { s with default := some value }
  | "minLength" => do return { s with text.minLength := ← Read.optional Read.count? value }
  | "maxLength" => do return { s with text.maxLength := ← Read.optional Read.count? value }
  | "pattern" => do return { s with text.pattern := ← Read.optional Read.string? value }
  | "format" => do return { s with text.format := ← Read.optional Read.string? value }
  | "minimum" => do return { s with number.minimum := ← Read.optional Read.double? value }
  | "maximum" => do return { s with number.maximum := ← Read.optional Read.double? value }
  | "exclusiveMinimum" => do
    return { s with number.exclusiveMinimum := ← Read.optional Read.double? value }
  | "exclusiveMaximum" => do
    return { s with number.exclusiveMaximum := ← Read.optional Read.double? value }
  | "multipleOf" => do return { s with number.multipleOf := ← Read.optional Read.double? value }
  | "minItems" => do return { s with array.minItems := ← Read.optional Read.count? value }
  | "maxItems" => do return { s with array.maxItems := ← Read.optional Read.count? value }
  | "uniqueItems" => do return { s with array.uniqueItems := ← Read.bool? value }
  | "minProperties" => do return { s with object.minProperties := ← Read.optional Read.count? value }
  | "maxProperties" => do return { s with object.maxProperties := ← Read.optional Read.count? value }
  | "required" => do return { s with required := ← Read.optional Read.strings? value }
  | "title" => do return { s with metadata.title := ← Read.optional Read.string? value }
  | "description" => do return { s with metadata.description := ← Read.optional Read.string? value }
  | "examples" => do return { s with metadata.examples := ← Read.optional Read.array? value }
  | "deprecated" => do return { s with metadata.deprecated := ← Read.bool? value }
  | "readOnly" => do return { s with metadata.readOnly := ← Read.bool? value }
  | "writeOnly" => do return { s with metadata.writeOnly := ← Read.bool? value }
  | _ => some s

mutual

/-- The schema of a document. -/
def ofJson? : Json → Option Schema
  | .object members => ofMembers? members
  | _ => none

def ofMembers? : List (String × Json) → Option Schema
  | [] => some {}
  | (key, value) :: rest =>
    match ofMembers? rest with
    | none => none
    | some s =>
      match key with
      | "properties" => (map? value).map fun ps => { s with properties := ps }
      | "patternProperties" => (map? value).map fun ps => { s with patternProperties := ps }
      | "additionalProperties" => (additional? value).map fun a => { s with additional := a }
      | "items" => (optional? value).map fun o => { s with items := o }
      | "oneOf" => (branches? value).map fun bs => { s with oneOf := bs }
      | "allOf" => (branches? value).map fun bs => { s with allOf := bs }
      | "anyOf" => (branches? value).map fun bs => { s with anyOf := bs }
      | "not" => (optional? value).map fun o => { s with not := o }
      | key => readFacet? s key value

def map? : Json → Option (List (String × Schema))
  | .object members => entries? members
  | _ => none

def entries? : List (String × Json) → Option (List (String × Schema))
  | [] => some []
  | (key, value) :: rest =>
    match ofJson? value, entries? rest with
    | some s, some ss => some ((key, s) :: ss)
    | _, _ => none

def additional? : Json → Option (Additional Schema)
  | .null => some .unspecified
  | .bool b => some (.allowed b)
  | .object members => (ofMembers? members).map .schema
  | _ => none

def optional? : Json → Option (Option Schema)
  | .null => some none
  | .object members => (ofMembers? members).map some
  | _ => none

def branches? : Json → Option (Option (List Schema))
  | .null => some none
  | .array items => (list? items).map some
  | _ => none

def list? : List Json → Option (List Schema)
  | [] => some []
  | value :: rest =>
    match ofJson? value, list? rest with
    | some s, some ss => some (s :: ss)
    | _, _ => none

end

/-! ### Writing -/

/-- A member, if there is a value for it. -/
def member {α : Type} (key : String) (write : α → Json) : Option α → List (String × Json)
  | none => []
  | some x => [(key, write x)]

/-- A member for a flag that is set. -/
def flag (key : String) (b : Bool) : List (String × Json) := if b then [(key, .bool true)] else []

def countJson (n : UInt64) : Json :=
  .number (.whole ⟨n.toNat, by have := n.toNat_lt; simp only [UInt64.size]; omega⟩)

def stringsJson (names : List String) : Json := .array (names.map .string)

/-- The keywords before the nested schemas, the kind to `maxProperties`. -/
def leadingMembers (s : Schema) : List (String × Json) :=
  member "type" (fun k => .string k.name) s.kind ++ flag "nullable" s.nullable ++
  member "enum" .array s.enum ++ member "const" id s.const ++ member "default" id s.default ++
  member "minLength" countJson s.text.minLength ++ member "maxLength" countJson s.text.maxLength ++
  member "pattern" .string s.text.pattern ++ member "format" .string s.text.format ++
  member "minimum" .ofDouble s.number.minimum ++ member "maximum" .ofDouble s.number.maximum ++
  member "exclusiveMinimum" .ofDouble s.number.exclusiveMinimum ++
  member "exclusiveMaximum" .ofDouble s.number.exclusiveMaximum ++
  member "multipleOf" .ofDouble s.number.multipleOf ++
  member "minItems" countJson s.array.minItems ++ member "maxItems" countJson s.array.maxItems ++
  flag "uniqueItems" s.array.uniqueItems ++
  member "minProperties" countJson s.object.minProperties ++
  member "maxProperties" countJson s.object.maxProperties

def metadataMembers (m : Metadata) : List (String × Json) :=
  member "title" .string m.title ++ member "description" .string m.description ++
  member "examples" .array m.examples ++ flag "deprecated" m.deprecated ++
  flag "readOnly" m.readOnly ++ flag "writeOnly" m.writeOnly

mutual

/-- The document of a schema. -/
def toJson : Schema → Json
  | s@{ properties := ps, patternProperties := pps, additional := ad, items := it, oneOf := one,
        allOf := all, anyOf := any, not := no, .. } =>
    .object (leadingMembers s ++ mapMember "properties" ps ++
      member "required" stringsJson s.required ++ mapMember "patternProperties" pps ++
      additionalMember ad ++ schemaMember "items" it ++ branchesMember "oneOf" one ++
      branchesMember "allOf" all ++ branchesMember "anyOf" any ++ schemaMember "not" no ++
      metadataMembers s.metadata)

/-- A map of schemas; an empty one is left out. -/
def mapMember (key : String) : List (String × Schema) → List (String × Json)
  | [] => []
  | (k, s) :: rest => [(key, .object ((k, toJson s) :: entriesJson rest))]

def entriesJson : List (String × Schema) → List (String × Json)
  | [] => []
  | (k, s) :: rest => (k, toJson s) :: entriesJson rest

def additionalMember : Additional Schema → List (String × Json)
  | .unspecified => []
  | .allowed b => [("additionalProperties", .bool b)]
  | .schema s => [("additionalProperties", toJson s)]

def schemaMember (key : String) : Option Schema → List (String × Json)
  | none => []
  | some s => [(key, toJson s)]

def branchesMember (key : String) : Option (List Schema) → List (String × Json)
  | none => []
  | some ss => [(key, .array (listJson ss))]

def listJson : List Schema → List Json
  | [] => []
  | s :: rest => toJson s :: listJson rest

end

end Schema

end DataSchema
