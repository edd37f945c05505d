import DataSchema.Json.Pointer

/-!
Issues: what a value is reported for, and where.

An issue names the part of the value by a JSON pointer, the schema keyword whose rule failed, and a
phrase. A list of issues is reported as one message, either with all of them or with the first only.
-/

namespace DataSchema

/-- The schema keywords that a value can fail. -/
inductive Keyword where
  | type | const | enum
  | minLength | maxLength | pattern | format
  | minimum | maximum | exclusiveMinimum | exclusiveMaximum | multipleOf
  | minItems | maxItems | uniqueItems
  | required | minProperties | maxProperties | additionalProperties
  | oneOf | anyOf | not
  deriving DecidableEq

namespace Keyword

def name : Keyword → String
  | .type => "type"
  | .const => "const"
  | .enum => "enum"
  | .minLength => "minLength"
  | .maxLength => "maxLength"
  | .pattern => "pattern"
  | .format => "format"
  | .minimum => "minimum"
  | .maximum => "maximum"
  | .exclusiveMinimum => "exclusiveMinimum"
  | .exclusiveMaximum => "exclusiveMaximum"
  | .multipleOf => "multipleOf"
  | .minItems => "minItems"
  | .maxItems => "maxItems"
  | .uniqueItems => "uniqueItems"
  | .required => "required"
  | .minProperties => "minProperties"
  | .maxProperties => "maxProperties"
  | .additionalProperties => "additionalProperties"
  | .oneOf => "oneOf"
  | .anyOf => "anyOf"
  | .not => "not"

def all : List Keyword :=
  [.type, .const, .enum, .minLength, .maxLength, .pattern, .format, .minimum, .maximum,
    .exclusiveMinimum, .exclusiveMaximum, .multipleOf, .minItems, .maxItems, .uniqueItems, .required,
    .minProperties, .maxProperties, .additionalProperties, .oneOf, .anyOf, .not]

def ofName? (text : String) : Option Keyword := all.find? fun k => k.name = text

end Keyword

/-- A failed rule: the pointer to the value, the keyword, and a phrase without the pointer. -/
structure Issue where
  instancePath : String
  keyword : Keyword
  message : String
  deriving DecidableEq

namespace Issue

/-- The issue as it is shown, with `data` for the root. -/
def render (issue : Issue) : String := "data" ++ issue.instancePath ++ " " ++ issue.message

/-- The message of a failed validation, with every issue or only the first. -/
def summary (issues : List Issue) (allErrors : Bool) : String :=
  let shown := if allErrors then issues else issues.take 1
  "Invalid parameters: " ++ String.intercalate ", " (shown.map render)

def toJson (issue : Issue) : Json :=
  .object [("instancePath", .string issue.instancePath), ("keyword", .string issue.keyword.name),
    ("message", .string issue.message)]

end Issue

end DataSchema
