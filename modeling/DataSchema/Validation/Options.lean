import DataSchema.Json.Fields

/-!
The policy of a validation, and partial changes to it.
-/

namespace DataSchema

/-- How a schema is checked and a value validated. -/
structure Options where
  /-- Convert scalars of the wrong kind. -/
  coerceTypes : Bool := false
  /-- Drop the members that a closed object does not permit. -/
  removeAdditional : Bool := false
  /-- Fill in the defaults of missing required members. -/
  useDefaults : Bool := true
  /-- Refuse doubtful schemas. -/
  strict : Bool := false
  /-- Report every issue, not only the first. -/
  allErrors : Bool := true
  deriving DecidableEq

/-- The fields of a policy to change; those left out stay as they are. -/
structure Overrides where
  coerceTypes : Option Bool := none
  removeAdditional : Option Bool := none
  useDefaults : Option Bool := none
  strict : Option Bool := none
  allErrors : Option Bool := none
  deriving DecidableEq

namespace Options

def withOverrides (o : Options) (changes : Overrides) : Options where
  coerceTypes := changes.coerceTypes.getD o.coerceTypes
  removeAdditional := changes.removeAdditional.getD o.removeAdditional
  useDefaults := changes.useDefaults.getD o.useDefaults
  strict := changes.strict.getD o.strict
  allErrors := changes.allErrors.getD o.allErrors

/-- The names of the fields in their order. -/
def fieldNames : List String :=
  ["coerceTypes", "removeAdditional", "useDefaults", "strict", "allErrors"]

/-- The policy of fields, where a missing one has its default and null is refused. -/
def ofFields? (fields : List (String × Json)) : Option Options := do
  let d : Options := {}
  return {
    coerceTypes := ← Read.field fields "coerceTypes" d.coerceTypes Read.bool?
    removeAdditional := ← Read.field fields "removeAdditional" d.removeAdditional Read.bool?
    useDefaults := ← Read.field fields "useDefaults" d.useDefaults Read.bool?
    strict := ← Read.field fields "strict" d.strict Read.bool?
    allErrors := ← Read.field fields "allErrors" d.allErrors Read.bool? }

/-- A policy as an object, or as an array of its fields. -/
def ofJson? (value : Json) : Option Options := (Read.fields? fieldNames value).bind ofFields?

def toJson (o : Options) : Json :=
  .object [("coerceTypes", .bool o.coerceTypes), ("removeAdditional", .bool o.removeAdditional),
    ("useDefaults", .bool o.useDefaults), ("strict", .bool o.strict), ("allErrors", .bool o.allErrors)]

end Options

namespace Overrides

/-- Changes as an object, or as an array of the fields; null changes nothing. -/
def ofJson? (value : Json) : Option Overrides := do
  let fields ← Read.fields? Options.fieldNames value
  return {
    coerceTypes := ← Read.field fields "coerceTypes" none (Read.optional Read.bool?)
    removeAdditional := ← Read.field fields "removeAdditional" none (Read.optional Read.bool?)
    useDefaults := ← Read.field fields "useDefaults" none (Read.optional Read.bool?)
    strict := ← Read.field fields "strict" none (Read.optional Read.bool?)
    allErrors := ← Read.field fields "allErrors" none (Read.optional Read.bool?) }

def memberJson (name : String) : Option Bool → List (String × Json)
  | none => []
  | some b => [(name, .bool b)]

/-- The fields that are set. -/
def toJson (changes : Overrides) : Json :=
  .object (memberJson "coerceTypes" changes.coerceTypes ++
    memberJson "removeAdditional" changes.removeAdditional ++
    memberJson "useDefaults" changes.useDefaults ++ memberJson "strict" changes.strict ++
    memberJson "allErrors" changes.allErrors)

end Overrides

end DataSchema
