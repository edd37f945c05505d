import DataSchema.Number.Decimal
import DataSchema.Schema.Basic
import DataSchema.Validation.Issue

/-!
The rules that a value can break, and where it broke one.

A violation holds what its message tells: the bound, the name, the places. A finding adds the way from
the value that was validated to the part that broke the rule; an issue is a finding as it is reported.
-/

namespace DataSchema

inductive Violation where
  | type (kind : Kind) (nullable : Bool)
  | const
  | enum
  | minLength (least : UInt64)
  | maxLength (most : UInt64)
  | pattern (source : String)
  | format (name : String)
  | minimum (bound : Binary64)
  | maximum (bound : Binary64)
  | exclusiveMinimum (bound : Binary64)
  | exclusiveMaximum (bound : Binary64)
  | multipleOf (step : Binary64)
  | minItems (least : UInt64)
  | maxItems (most : UInt64)
  | duplicateItems (later earlier : Nat)
  | required (name : String)
  | minProperties (least : UInt64)
  | maxProperties (most : UInt64)
  | additionalProperties
  | anyOf
  | oneOf
  | not
  deriving DecidableEq

namespace Violation

def keyword : Violation → Keyword
  | .type _ _ => .type
  | .const => .const
  | .enum => .enum
  | .minLength _ => .minLength
  | .maxLength _ => .maxLength
  | .pattern _ => .pattern
  | .format _ => .format
  | .minimum _ => .minimum
  | .maximum _ => .maximum
  | .exclusiveMinimum _ => .exclusiveMinimum
  | .exclusiveMaximum _ => .exclusiveMaximum
  | .multipleOf _ => .multipleOf
  | .minItems _ => .minItems
  | .maxItems _ => .maxItems
  | .duplicateItems _ _ => .uniqueItems
  | .required _ => .required
  | .minProperties _ => .minProperties
  | .maxProperties _ => .maxProperties
  | .additionalProperties => .additionalProperties
  | .anyOf => .anyOf
  | .oneOf => .oneOf
  | .not => .not

/-- A bound as messages tell it: positional, with a fraction only where there is one, and without the
sign of a zero. -/
def boundText (x : Binary64) : String :=
  let body := x.shortest.positional
  String.ofList (if x.negative ∧ ¬x.isZero then '-' :: body else body)

def message : Violation → String
  | .type kind nullable => "must be " ++ kind.name ++ if nullable then ",null" else ""
  | .const => "must be equal to constant"
  | .enum => "must be equal to one of the allowed values"
  | .minLength n => "must NOT have fewer than " ++ toString n.toNat ++ " characters"
  | .maxLength n => "must NOT have more than " ++ toString n.toNat ++ " characters"
  | .pattern source => "must match pattern \"" ++ source ++ "\""
  | .format name => "must match format \"" ++ name ++ "\""
  | .minimum x => "must be >= " ++ boundText x
  | .maximum x => "must be <= " ++ boundText x
  | .exclusiveMinimum x => "must be > " ++ boundText x
  | .exclusiveMaximum x => "must be < " ++ boundText x
  | .multipleOf x => "must be multiple of " ++ boundText x
  | .minItems n => "must NOT have fewer than " ++ toString n.toNat ++ " items"
  | .maxItems n => "must NOT have more than " ++ toString n.toNat ++ " items"
  | .duplicateItems later earlier =>
    "must NOT have duplicate items (items ## " ++ toString later ++ " and " ++ toString earlier ++
      " are identical)"
  | .required name => "must have required property '" ++ name ++ "'"
  | .minProperties n => "must NOT have fewer than " ++ toString n.toNat ++ " properties"
  | .maxProperties n => "must NOT have more than " ++ toString n.toNat ++ " properties"
  | .additionalProperties => "must NOT have additional properties"
  | .anyOf => "must match a schema in anyOf"
  | .oneOf => "must match exactly one schema in oneOf"
  | .not => "must NOT be valid"

end Violation

/-- A broken rule and the keys and indices that lead to the part that broke it. -/
structure Finding where
  path : List String
  violation : Violation
  deriving DecidableEq

namespace Finding

/-- A broken rule of the value itself. -/
def here (violation : Violation) : Finding := ⟨[], violation⟩

/-- The finding as seen from the container that holds the value under a key. -/
def under (key : String) (f : Finding) : Finding := { f with path := key :: f.path }

def toIssue (f : Finding) : Issue :=
  ⟨Pointer.render f.path, f.violation.keyword, f.violation.message⟩

end Finding

end DataSchema
