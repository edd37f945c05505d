import DataSchema.Schema.Property

/-!
Merging the properties of two object schemas.

Everything but the properties and their required names is taken from the base. Properties of the base
keep their place; those that only the overlay declares follow in the overlay's order. What becomes of a
property that both declare is the strategy's choice.
-/

namespace DataSchema

/-- What a merge does with a property that both sides declare. -/
inductive MergeStrategy where
  /-- The base's schema if the kinds agree, else the union. -/
  | intersect
  /-- The base's schema if the schemas agree, else the union. -/
  | merge
  /-- The overlay's schema. -/
  | overwrite
  deriving DecidableEq

namespace MergeStrategy

def operation : MergeStrategy → Operation
  | .intersect => .intersect
  | .merge => .merge
  | .overwrite => .overwrite

/-- The schema of a property that both sides declare. -/
def resolve (strategy : MergeStrategy) (existing incoming : Schema) : Schema :=
  match strategy with
  | .intersect =>
    if existing.kind = incoming.kind then existing else Schema.either existing incoming
  | .merge => if existing.same incoming then existing else Schema.either existing incoming
  | .overwrite => incoming

end MergeStrategy

namespace Schema

/-- Takes one property of an overlay that requires the listed names. -/
def mergeProperty (strategy : MergeStrategy) (required : List String) (merged : Schema)
    (entry : String × Schema) : Schema :=
  let (name, incoming) := entry
  let next := match Entries.get? merged.properties name with
    | none => merged.putProperty name incoming
    | some existing =>
      let kept := merged.putProperty name (strategy.resolve existing incoming)
      if strategy = .overwrite ∧ ¬required.contains name then kept.unmarkRequired name else kept
  if required.contains name then next.markRequired name else next

/-- Merges the properties of a simple object schema into another. -/
def merge (strategy : MergeStrategy) (base overlay : Schema) : Except ReshapeError Schema := do
  base.ensureSimple strategy.operation
  overlay.ensureSimple strategy.operation
  return overlay.properties.foldl (mergeProperty strategy overlay.requiredNames) base

end Schema

end DataSchema
