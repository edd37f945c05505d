/-!
Why a schema cannot be reshaped or read: the precondition that an operation found broken.
-/

namespace DataSchema

/-- The operations that demand something of the shape of a schema. -/
inductive Operation where
  | addProperty | addProperties | removeProperty | setOptional | setRequired
  | rename | renameOptional | pick | pickAdditional | omitProperties
  | transform | transformToArray | unwrapArray | replace | addOrReplace
  | addAdditional | addPattern | intersect | merge | overwrite
  deriving DecidableEq

def Operation.name : Operation → String
  | .addProperty => "add_property"
  | .addProperties => "add_properties"
  | .removeProperty => "remove_property"
  | .setOptional => "set_optional_properties"
  | .setRequired => "set_required_properties"
  | .rename => "rename_property"
  | .renameOptional => "rename_optional_property"
  | .pick => "pick_properties"
  | .pickAdditional => "pick_additional_properties"
  | .omitProperties => "omit_properties"
  | .transform => "transform_properties"
  | .transformToArray => "transform_properties_to_array"
  | .unwrapArray => "unwrap_array_properties"
  | .replace => "replace_property"
  | .addOrReplace => "add_or_replace_property"
  | .addAdditional => "add_additional_properties"
  | .addPattern => "add_pattern_property"
  | .intersect => "intersect_properties"
  | .merge => "merge_properties"
  | .overwrite => "overwrite_properties"

/-- The combinations that need at least two branches. -/
inductive Combinator where
  | oneOf | allOf | anyOf
  deriving DecidableEq

def Combinator.name : Combinator → String
  | .oneOf => "oneOf"
  | .allOf => "allOf"
  | .anyOf => "anyOf"

inductive ReshapeError where
  | notObject (operation : Operation)
  | notSimpleObject (operation : Operation)
  | combination (operation : Operation)
  | duplicateProperty (name : String)
  | missingProperty (name : String)
  | alreadyOpen
  | tooFewSchemas (combinator : Combinator) (least actual : Nat)
  | notArray
  | invalidPattern (pattern : String)
  | invalidDocument
  deriving DecidableEq

namespace ReshapeError

def message : ReshapeError → String
  | .notObject op => op.name ++ " requires an object schema"
  | .notSimpleObject op =>
    op.name ++
      " requires a simple object schema (no additional properties, no oneOf/allOf/anyOf/not)"
  | .combination op => op.name ++ " cannot be applied to a schema with oneOf/allOf/anyOf/not"
  | .duplicateProperty name => "property '" ++ name ++ "' already exists"
  | .missingProperty name => "property '" ++ name ++ "' does not exist"
  | .alreadyOpen => "additional properties are already allowed on this schema"
  | .tooFewSchemas c least actual =>
    c.name ++ " requires at least " ++ toString least ++ " schemas, got " ++ toString actual
  | .notArray => "schema is not an array schema"
  | .invalidPattern pattern => "invalid property pattern '" ++ pattern ++ "'"
  | .invalidDocument => "invalid schema document"

end ReshapeError

end DataSchema
