import DataSchema.Schema.Basic
import DataSchema.Schema.Error

/-!
Combinations of schemas, and the ways to relax one.

`oneOf`, `allOf` and `anyOf` need two branches at least. Dropping the required names of an object drops
the defaults of its properties with them, since a default only serves a required property. A schema is
made to take null once: not when it takes null already, itself or in a branch of a union.
-/

namespace DataSchema.Schema

def refuseTooFew (combinator : Combinator) (branches : List Schema) : Except ReshapeError Unit :=
  if branches.length < 2 then .error (.tooFewSchemas combinator 2 branches.length) else .ok ()

/-- Takes the values that exactly one branch takes. -/
def ofOneOf (branches : List Schema) : Except ReshapeError Schema := do
  refuseTooFew .oneOf branches
  return { oneOf := some branches }

/-- Takes the values that every branch takes. -/
def ofAllOf (branches : List Schema) : Except ReshapeError Schema := do
  refuseTooFew .allOf branches
  return { allOf := some branches }

/-- Takes the values that some branch takes. -/
def ofAnyOf (branches : List Schema) : Except ReshapeError Schema := do
  refuseTooFew .anyOf branches
  return { anyOf := some branches }

/-- The union of two schemas. -/
def either (first second : Schema) : Schema := { anyOf := some [first, second] }

/-- Takes the values that the schema does not take. -/
def ofNot (s : Schema) : Schema := { not := some s }

def withoutDefault (s : Schema) : Schema := { s with default := none }

/-- Requires no member, and drops the defaults of the properties. -/
def toOptionals (s : Schema) : Schema :=
  { s with required := none, properties := Entries.mapValues withoutDefault s.properties }

mutual

/-- Drops the required names of every nested schema too. -/
def toDeepOptionals : Schema → Schema
  | s@{ properties := ps, patternProperties := pps, additional := ad, items := it, oneOf := one,
        allOf := all, anyOf := any, not := no, .. } =>
    toOptionals { s with
      properties := deepOptionalEntries ps, patternProperties := deepOptionalEntries pps
      additional := deepOptionalAdditional ad, items := deepOptionalOption it
      oneOf := deepOptionalBranches one, allOf := deepOptionalBranches all
      anyOf := deepOptionalBranches any, not := deepOptionalOption no }

def deepOptionalEntries : List (String × Schema) → List (String × Schema)
  | [] => []
  | (k, s) :: rest => (k, toDeepOptionals s) :: deepOptionalEntries rest

def deepOptionalAdditional : Additional Schema → Additional Schema
  | .unspecified => .unspecified
  | .allowed b => .allowed b
  | .schema s => .schema (toDeepOptionals s)

def deepOptionalOption : Option Schema → Option Schema
  | none => none
  | some s => some (toDeepOptionals s)

def deepOptionalBranches : Option (List Schema) → Option (List Schema)
  | none => none
  | some ss => some (deepOptionalList ss)

def deepOptionalList : List Schema → List Schema
  | [] => []
  | s :: rest => toDeepOptionals s :: deepOptionalList rest

end

/-- Does the schema take null, itself or in a branch of a union? -/
def admitsNull (s : Schema) : Bool :=
  s.acceptsNull || s.oneOf.any (·.any acceptsNull) || s.anyOf.any (·.any acceptsNull)

/-- Takes null too. -/
def toNullable (s : Schema) : Schema := if s.admitsNull then s else { s with nullable := true }

mutual

/-- Lets every nested schema take null too, except under a combination, which takes null as a whole. -/
def toDeepNullable : Schema → Schema
  | s@{ properties := ps, patternProperties := pps, additional := ad, items := it, oneOf := none,
        allOf := none, anyOf := none, not := none, .. } =>
    toNullable { s with
      properties := deepNullableEntries ps, patternProperties := deepNullableEntries pps
      additional := deepNullableAdditional ad, items := deepNullableOption it }
  | s => toNullable s

def deepNullableEntries : List (String × Schema) → List (String × Schema)
  | [] => []
  | (k, s) :: rest => (k, toDeepNullable s) :: deepNullableEntries rest

def deepNullableAdditional : Additional Schema → Additional Schema
  | .unspecified => .unspecified
  | .allowed b => .allowed b
  | .schema s => .schema (toDeepNullable s)

def deepNullableOption : Option Schema → Option Schema
  | none => none
  | some s => some (toDeepNullable s)

end

end DataSchema.Schema
