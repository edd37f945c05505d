import DataSchema.Format.Basic
import DataSchema.Pattern.Engine
import DataSchema.Validation.Coercion
import DataSchema.Validation.Violation

/-!
The facets of a schema that look at one value and at nothing below it.

Each kind of value has its own facets; a value of another kind never breaks them. Constants and listed
values are compared by `Json.equivalent`, lengths count characters, and an unknown format accepts every
string.
-/

namespace DataSchema

/-- The violation that a facet makes if it is set and broken. -/
def brokenFacet {α : Type} (broken : α → Bool) (violation : α → Violation) :
    Option α → List Violation
  | some facet => if broken facet then [violation facet] else []
  | none => []

/-- Does a known format refuse the text? -/
def Format.refuses (name text : String) : Bool := (Format.ofName? name).any (!·.accepts text)

/-- Does the check of the text break off, the format being known? -/
def TextFacets.breaksOff (f : TextFacets) (text : String) : Bool :=
  (f.format.bind Format.ofName?).any (·.breaksOff text)

variable [Pattern.Engine]

def TextFacets.violations (f : TextFacets) (text : String) : List Violation :=
  let length := text.length
  brokenFacet (length < ·.toNat) .minLength f.minLength ++
  brokenFacet (·.toNat < length) .maxLength f.maxLength ++
  brokenFacet (!Pattern.accepts · text) .pattern f.pattern ++
  brokenFacet (Format.refuses · text) .format f.format

/-- The tolerance of the check for multiples, a billionth. -/
def Binary64.tolerance : Binary64 := (ofRatio? false 1 1000000000).getD (zero false)

/-- Is the quotient farther from a whole number than the tolerance? A step that is not positive, and a
quotient beyond the largest double, break nothing. -/
def Binary64.offStep (x step : Binary64) : Bool :=
  (zero false).less step &&
    (x.div? step).any fun quotient => tolerance.magnitude < quotient.distanceToWhole

def NumberFacets.violations (f : NumberFacets) (x : Binary64) : List Violation :=
  brokenFacet (x.less ·) .minimum f.minimum ++
  brokenFacet (·.less x) .maximum f.maximum ++
  brokenFacet (!·.less x) .exclusiveMinimum f.exclusiveMinimum ++
  brokenFacet (!x.less ·) .exclusiveMaximum f.exclusiveMaximum ++
  brokenFacet (x.offStep ·) .multipleOf f.multipleOf

def ArrayFacets.violations (f : ArrayFacets) (items : List Json) : List Violation :=
  brokenFacet (items.length < ·.toNat) .minItems f.minItems ++
  brokenFacet (·.toNat < items.length) .maxItems f.maxItems ++
  (if f.uniqueItems then
    match Json.duplicate? items with
    | some (later, earlier) => [.duplicateItems later earlier]
    | none => []
  else [])

def ObjectFacets.violations (f : ObjectFacets) (members : List (String × Json)) : List Violation :=
  brokenFacet (members.length < ·.toNat) .minProperties f.minProperties ++
  brokenFacet (·.toNat < members.length) .maxProperties f.maxProperties

namespace Schema

/-! ### Constants and listed values -/

def valueViolations (s : Schema) (value : Json) : List Violation :=
  brokenFacet (!Json.equivalent · value) (fun _ => .const) s.const ++
  brokenFacet (fun values => !values.any (Json.equivalent · value)) (fun _ => .enum) s.enum

/-! ### Keys of objects -/

/-- Does a pattern of the schema accept the key? -/
def matchesKey (s : Schema) (key : String) : Bool :=
  s.patternProperties.any fun e => Pattern.accepts e.1 key

/-- A key that no property and no pattern names. -/
def isExtra (s : Schema) (key : String) : Bool := !s.declares key && !s.matchesKey key

/-- The members without those that a closed schema does not permit. -/
def dropExtra (s : Schema) (members : List (String × Json)) : List (String × Json) :=
  if s.isOpen then members else members.filter fun e => !s.isExtra e.1

/-- The members with the defaults of missing required properties at their end. -/
def fillDefaults (s : Schema) (members : List (String × Json)) : List (String × Json) :=
  s.properties.foldl (fun members (name, property) =>
    match property.default with
    | some value =>
      if s.isRequired name && !Entries.has members name then members ++ [(name, value)] else members
    | none => members) members

/-- The violations of an object by the keys that it has. -/
def keyViolations (s : Schema) (members : List (String × Json)) : List Violation :=
  (s.requiredNames.filter (!Entries.has members ·)).map .required ++
  s.object.violations members ++
  (if s.isOpen then [] else
    (members.filter fun e => s.isExtra e.1).map fun _ => .additionalProperties)

end Schema

end DataSchema
