import DataSchema.Schema.Basic

/-!
Facets that are set one at a time, each without regard to the others.

What is set replaces what was there, and may contradict the rest of the schema. Bounds are finite numbers:
NaN and the infinities, which no document can give, are not values of a facet.
-/

namespace DataSchema

/-- A facet, by the type of what it is set to. -/
inductive Facet : Type → Type where
  | minLength : Facet UInt64
  | maxLength : Facet UInt64
  | minItems : Facet UInt64
  | maxItems : Facet UInt64
  | minProperties : Facet UInt64
  | maxProperties : Facet UInt64
  | minimum : Facet Binary64
  | maximum : Facet Binary64
  | exclusiveMinimum : Facet Binary64
  | exclusiveMaximum : Facet Binary64
  | multipleOf : Facet Binary64
  | pattern : Facet String
  | format : Facet String
  | title : Facet String
  | description : Facet String
  | default : Facet Json
  | examples : Facet (List Json)
  | nullable : Facet Bool
  | uniqueItems : Facet Bool
  | deprecated : Facet Bool
  | readOnly : Facet Bool
  | writeOnly : Facet Bool

namespace Schema

/-- The schema with a facet set. -/
def set {α : Type} (s : Schema) : Facet α → α → Schema
  | .minLength, n => { s with text.minLength := some n }
  | .maxLength, n => { s with text.maxLength := some n }
  | .minItems, n => { s with array.minItems := some n }
  | .maxItems, n => { s with array.maxItems := some n }
  | .minProperties, n => { s with object.minProperties := some n }
  | .maxProperties, n => { s with object.maxProperties := some n }
  | .minimum, x => { s with number.minimum := some x }
  | .maximum, x => { s with number.maximum := some x }
  | .exclusiveMinimum, x => { s with number.exclusiveMinimum := some x }
  | .exclusiveMaximum, x => { s with number.exclusiveMaximum := some x }
  | .multipleOf, x => { s with number.multipleOf := some x }
  | .pattern, text => { s with text.pattern := some text }
  | .format, text => { s with text.format := some text }
  | .title, text => { s with metadata.title := some text }
  | .description, text => { s with metadata.description := some text }
  | .default, value => { s with default := some value }
  | .examples, values => { s with metadata.examples := some values }
  | .nullable, b => { s with nullable := b }
  | .uniqueItems, b => { s with array.uniqueItems := b }
  | .deprecated, b => { s with metadata.deprecated := b }
  | .readOnly, b => { s with metadata.readOnly := b }
  | .writeOnly, b => { s with metadata.writeOnly := b }

variable {α : Type} {s : Schema}

/-- Of two values for one facet the later counts. -/
theorem set_set (f : Facet α) (x y : α) : (s.set f x).set f y = s.set f y := by
  cases f <;> rfl

/-- Facets have no part in which members are required. -/
theorem required_set (f : Facet α) (x : α) : (s.set f x).required = s.required := by
  cases f <;> rfl

end Schema

end DataSchema
