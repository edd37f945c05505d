import DataSchema.Format.Basic
import DataSchema.Pattern.Engine
import DataSchema.Schema.Basic
import DataSchema.Validation.Issue

/-!
What a schema must satisfy before values are validated against it.

Every pattern must be a pattern. The strict check also refuses unknown formats, bounds in the wrong
order, required names that are not declared, and defaults of optional properties, which never take
effect. The first fault is reported with the pointer to the schema that has it; a bad key of
`patternProperties` is reported at the schema under that key.
-/

namespace DataSchema

/-- The bounds that can be in the wrong order. -/
inductive Bounds where
  | length | number | items | properties
  deriving DecidableEq

def Bounds.name : Bounds → String
  | .length => "length"
  | .number => "number"
  | .items => "items"
  | .properties => "properties"

/-- What is wrong with a schema. -/
inductive SchemaFault where
  | invalidPattern (pattern : String)
  | unknownFormat (format : String)
  | undeclaredRequired (name : String)
  | defaultOnOptional (name : String)
  | invertedBounds (bounds : Bounds)
  deriving DecidableEq

/-- A fault and the way to the schema that has it. -/
structure SchemaError where
  path : List String
  fault : SchemaFault
  deriving DecidableEq

namespace SchemaError

/-- The pointer to the schema, from the sign of the root on. -/
def pathText (e : SchemaError) : String := "#" ++ Pointer.render e.path

def message (e : SchemaError) : String :=
  match e.fault with
  | .invalidPattern pattern => "invalid pattern '" ++ pattern ++ "' at " ++ e.pathText
  | .unknownFormat format => "unknown format '" ++ format ++ "' at " ++ e.pathText
  | .undeclaredRequired name =>
    "required property '" ++ name ++ "' is not declared at " ++ e.pathText
  | .defaultOnOptional name =>
    "optional property '" ++ name ++ "' declares a default at " ++ e.pathText
  | .invertedBounds bounds => bounds.name ++ " bounds are inverted at " ++ e.pathText

/-- The error as seen from the schema that holds the faulty one under some keys. -/
def under (keys : List String) (e : SchemaError) : SchemaError := { e with path := keys ++ e.path }

end SchemaError

variable [Pattern.Engine]

namespace Schema

/-! ### The faults of one schema -/

def patternFault? (pattern : String) : Option SchemaFault :=
  if Pattern.isValid pattern then none else some (.invalidPattern pattern)

def formatFault? (format : String) : Option SchemaFault :=
  if (Format.ofName? format).isSome then none else some (.unknownFormat format)

/-- The bounds are in the wrong order when both are there and the lower one is greater. -/
def boundsFault? {α : Type} (bounds : Bounds) (greater : α → α → Bool) (low high : Option α) :
    Option SchemaFault :=
  match low, high with
  | some low, some high => if greater low high then some (.invertedBounds bounds) else none
  | _, _ => none

def countsFault? (bounds : Bounds) (low high : Option UInt64) : Option SchemaFault :=
  boundsFault? bounds (fun a b => decide (b < a)) low high

/-- What only the strict check refuses: bounds and required names. -/
def strictFault? (s : Schema) : Option SchemaFault :=
  countsFault? .length s.text.minLength s.text.maxLength <|>
  boundsFault? .number (fun a b => b.less a) s.number.minimum s.number.maximum <|>
  countsFault? .items s.array.minItems s.array.maxItems <|>
  countsFault? .properties s.object.minProperties s.object.maxProperties <|>
  (s.requiredNames.find? (!s.declares ·)).map .undeclaredRequired

/-- The first fault of the schema's own facets. -/
def facetFault? (strict : Bool) (s : Schema) : Option SchemaFault :=
  s.text.pattern.bind patternFault? <|>
  (if strict then s.text.format.bind formatFault? <|> s.strictFault? else none)

/-- Does an optional property carry a default? -/
def optionalDefault (s : Schema) (name : String) (child : Schema) : Bool :=
  !s.isRequired name && child.default.isSome

def failure (fault : Option SchemaFault) : Except SchemaError Unit :=
  match fault with
  | some fault => .error ⟨[], fault⟩
  | none => .ok ()

/-! ### The whole tree -/

/-- Runs a check of a nested schema; its error is seen from outside. -/
def nestedCheck (keys : List String) (check : Except SchemaError Unit) : Except SchemaError Unit :=
  check.mapError (·.under keys)

mutual

/-- The first fault of a schema, in the order of its keywords. -/
def check (strict : Bool) : Schema → Except SchemaError Unit
  | s@{ properties := ps, patternProperties := pps, additional := ad, items := it, oneOf := one,
        allOf := all, anyOf := any, not := no, .. } => do
    failure (facetFault? strict s)
    checkProperties strict s ps
    checkPatterns strict pps
    checkAdditional strict ad
    checkOption strict "items" it
    checkBranches strict "oneOf" one
    checkBranches strict "allOf" all
    checkBranches strict "anyOf" any
    checkOption strict "not" no

/-- The properties of the owner, of which a default on an optional one is its own fault. -/
def checkProperties (strict : Bool) (owner : Schema) :
    List (String × Schema) → Except SchemaError Unit
  | [] => .ok ()
  | (name, s) :: rest => do
    failure (if strict && owner.optionalDefault name s then some (.defaultOnOptional name) else none)
    nestedCheck ["properties", name] (check strict s)
    checkProperties strict owner rest

def checkPatterns (strict : Bool) : List (String × Schema) → Except SchemaError Unit
  | [] => .ok ()
  | (pattern, s) :: rest => do
    nestedCheck ["patternProperties", pattern] do
      failure (patternFault? pattern)
      check strict s
    checkPatterns strict rest

def checkAdditional (strict : Bool) : Additional Schema → Except SchemaError Unit
  | .schema s => nestedCheck ["additionalProperties"] (check strict s)
  | _ => .ok ()

def checkOption (strict : Bool) (key : String) : Option Schema → Except SchemaError Unit
  | none => .ok ()
  | some s => nestedCheck [key] (check strict s)

def checkBranches (strict : Bool) (key : String) :
    Option (List Schema) → Except SchemaError Unit
  | none => .ok ()
  | some ss => checkList strict key 0 ss

def checkList (strict : Bool) (key : String) (index : Nat) : List Schema → Except SchemaError Unit
  | [] => .ok ()
  | s :: rest => do
    nestedCheck [key, toString index] (check strict s)
    checkList strict key (index + 1) rest

end

end Schema

end DataSchema
