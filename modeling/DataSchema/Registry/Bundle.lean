import DataSchema.Json.Fields
import DataSchema.Json.Reader

/-!
Bundles: schema documents distributed as one text.
-/

namespace DataSchema

structure Bundle where
  version : String
  name : Option String := none
  description : Option String := none
  /-- The documents by the names that references use. -/
  schemas : List (String × Json) := []

namespace Bundle

/-- The names of the fields in their order. -/
def fieldNames : List String := ["version", "name", "description", "schemas"]

/-- The members of an object, of which a repeated key has its last value. -/
def schemas? : Json → Option (List (String × Json))
  | .object members => some (Entries.ofList (Json.collapseMembers members))
  | _ => none

/-- The bundle of fields; only the version may not be missing. -/
def ofFields? (fields : List (String × Json)) : Option Bundle := do
  return {
    version := ← (Entries.get? fields "version").bind Read.string?
    name := ← Read.field fields "name" none (Read.optional Read.string?)
    description := ← Read.field fields "description" none (Read.optional Read.string?)
    schemas := ← Read.field fields "schemas" [] schemas? }

/-- The bundle of a text, which has none of the fields twice. -/
def ofText? (text : String) : Option Bundle := do
  let fields ← (Json.readKnown? fieldNames text).bind (Read.fields? fieldNames)
  let known := (Entries.keys fields).filter fieldNames.contains
  if known.eraseDups.length = known.length then ofFields? fields else none

def toJson (b : Bundle) : Json :=
  .object ([("version", .string b.version)] ++
    (b.name.toList.map fun name => ("name", .string name)) ++
    (b.description.toList.map fun text => ("description", .string text)) ++
    [("schemas", .object b.schemas)])

def insert (b : Bundle) (name : String) (document : Json) : Bundle :=
  { b with schemas := Entries.put b.schemas name document }

def names (b : Bundle) : List String := Entries.keys b.schemas

end Bundle

end DataSchema
