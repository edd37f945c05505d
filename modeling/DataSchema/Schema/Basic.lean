import DataSchema.Json.Basic

/-!
Schemas: trees of constraints on values.

A schema may name the kind of value it wants, list the values it takes, and carry facets for the values
of each kind; nested schemas govern the members of objects, the elements of arrays and the branches of a
combination. What a schema does not say does not constrain. Maps of nested schemas keep their order, and
two schemas are the same (`==`) when they differ at most in the order of maps.
-/

namespace DataSchema

/-- The kinds of values that a schema can name. Every integer is a number too. -/
inductive Kind where
  | string | number | integer | boolean | null | object | array
  deriving DecidableEq

namespace Kind

def name : Kind → String
  | .string => "string"
  | .number => "number"
  | .integer => "integer"
  | .boolean => "boolean"
  | .null => "null"
  | .object => "object"
  | .array => "array"

def all : List Kind := [.string, .number, .integer, .boolean, .null, .object, .array]

def ofName? (text : String) : Option Kind := all.find? fun k => k.name = text

end Kind

/-- Constraints on strings. -/
structure TextFacets where
  minLength : Option UInt64 := none
  maxLength : Option UInt64 := none
  pattern : Option String := none
  format : Option String := none
  deriving DecidableEq

/-- Constraints on numbers and integers. A bound is a finite number, as every bound in a document is; NaN and
the infinities, which a builder could be given, are none. -/
structure NumberFacets where
  minimum : Option Binary64 := none
  maximum : Option Binary64 := none
  exclusiveMinimum : Option Binary64 := none
  exclusiveMaximum : Option Binary64 := none
  multipleOf : Option Binary64 := none
  deriving DecidableEq

/-- Constraints on arrays, their elements apart. -/
structure ArrayFacets where
  minItems : Option UInt64 := none
  maxItems : Option UInt64 := none
  uniqueItems : Bool := false
  deriving DecidableEq

/-- Constraints on the number of members of an object. -/
structure ObjectFacets where
  minProperties : Option UInt64 := none
  maxProperties : Option UInt64 := none
  deriving DecidableEq

/-- Descriptions, which constrain nothing. -/
structure Metadata where
  title : Option String := none
  description : Option String := none
  examples : Option (List Json) := none
  deprecated : Bool := false
  readOnly : Bool := false
  writeOnly : Bool := false

/-- What a schema says about members that no property or pattern names: nothing, whether they may be
there, or the schema that governs them. -/
inductive Additional (σ : Type) where
  | unspecified
  | allowed (yes : Bool)
  | schema (schema : σ)

structure Schema where
  kind : Option Kind := none
  /-- Takes null beside what the rest of the schema says. -/
  nullable : Bool := false
  enum : Option (List Json) := none
  const : Option Json := none
  /-- What is filled in for a missing required member. -/
  default : Option Json := none
  text : TextFacets := {}
  number : NumberFacets := {}
  array : ArrayFacets := {}
  object : ObjectFacets := {}
  properties : List (String × Schema) := []
  required : Option (List String) := none
  patternProperties : List (String × Schema) := []
  additional : Additional Schema := .unspecified
  items : Option Schema := none
  oneOf : Option (List Schema) := none
  allOf : Option (List Schema) := none
  anyOf : Option (List Schema) := none
  not : Option Schema := none
  metadata : Metadata := {}

namespace Schema

/-! ### Schemas of one kind -/

def ofKind (kind : Kind) : Schema := { kind := some kind }

/-- Takes one of the values. -/
def enumeration (values : List Json) : Schema := { enum := some values }

/-- Takes one value. -/
def constant (value : Json) : Schema := { const := some value }

/-- Arrays whose elements the schema governs. -/
def arrayOf (element : Schema) : Schema := { kind := some .array, items := some element }

/-- Objects without members, until properties are added. -/
def emptyObject : Schema := { kind := some .object, additional := .allowed false }

/-! ### Questions -/

/-- An object schema: it names the kind, or names none and declares properties. -/
def isObject (s : Schema) : Bool :=
  match s.kind with
  | some kind => kind == .object
  | none => !s.properties.isEmpty

/-- May there be members that are not declared? -/
def isOpen (s : Schema) : Bool :=
  match s.additional with
  | .allowed false => false
  | _ => true

def hasCombination (s : Schema) : Bool :=
  s.oneOf.isSome || s.allOf.isSome || s.anyOf.isSome || s.not.isSome

/-- A closed object schema without combinations. -/
def isSimpleObject (s : Schema) : Bool := s.isObject && !s.isOpen && !s.hasCombination

/-- Does null pass the kind and the listed values? -/
def acceptsNull (s : Schema) : Bool :=
  s.nullable || s.kind == some .null || s.const.any Json.isNull ||
    s.enum.any fun values => values.any Json.isNull

def requiredNames (s : Schema) : List String := s.required.getD []

def isRequired (s : Schema) (name : String) : Bool := s.requiredNames.contains name

def propertyNames (s : Schema) : List String := Entries.keys s.properties

def declares (s : Schema) (name : String) : Bool := Entries.has s.properties name

theorem declares_of_get? {s t : Schema} {name : String} (h : Entries.get? s.properties name = some t) :
    s.declares name = true := by
  rw [declares, Entries.has, h]
  rfl

theorem declares_of_mem {s t : Schema} {name : String} (h : (name, t) ∈ s.properties) :
    s.declares name = true := (Entries.has_iff s.properties name).mpr (List.mem_map_of_mem h)

theorem not_declares_of_get? {s : Schema} {name : String} (h : Entries.get? s.properties name = none) :
    s.declares name = false := by
  rw [declares, Entries.has, h]
  rfl

end Schema

/-! ### Equality -/

/-- Equality of bounds as numbers. -/
def sameBound : Option Binary64 → Option Binary64 → Bool
  | none, none => true
  | some x, some y => x.equals y
  | _, _ => false

def sameValue : Option Json → Option Json → Bool
  | none, none => true
  | some x, some y => x.same y
  | _, _ => false

def sameValues : Option (List Json) → Option (List Json) → Bool
  | none, none => true
  | some xs, some ys => Json.sameItems xs ys
  | _, _ => false

def NumberFacets.same (a b : NumberFacets) : Bool :=
  sameBound a.minimum b.minimum && sameBound a.maximum b.maximum &&
    sameBound a.exclusiveMinimum b.exclusiveMinimum &&
    sameBound a.exclusiveMaximum b.exclusiveMaximum && sameBound a.multipleOf b.multipleOf

def Metadata.same (a b : Metadata) : Bool :=
  a.title == b.title && a.description == b.description && sameValues a.examples b.examples &&
    a.deprecated == b.deprecated && a.readOnly == b.readOnly && a.writeOnly == b.writeOnly

namespace Schema

/-- Equality of everything but the nested schemas. -/
def sameFacets (a b : Schema) : Bool :=
  a.kind == b.kind && a.nullable == b.nullable && sameValues a.enum b.enum &&
    sameValue a.const b.const && sameValue a.default b.default && a.text == b.text &&
    a.number.same b.number && a.array == b.array && a.object == b.object &&
    a.required == b.required && a.metadata.same b.metadata

mutual

/-- Equality up to the order of maps. -/
def same : Schema → Schema → Bool
  | a@{ properties := ps, patternProperties := pps, additional := ad, items := it, oneOf := one,
        allOf := all, anyOf := any, not := no, .. }, b =>
    sameFacets a b && ps.length == b.properties.length && sameEntries ps b.properties &&
      pps.length == b.patternProperties.length && sameEntries pps b.patternProperties &&
      sameAdditional ad b.additional && sameOption it b.items && sameBranches one b.oneOf &&
      sameBranches all b.allOf && sameBranches any b.anyOf && sameOption no b.not

/-- Every entry of the first map has an equal one under its key in the second. -/
def sameEntries : List (String × Schema) → List (String × Schema) → Bool
  | [], _ => true
  | (k, s) :: rest, ts =>
    (match Entries.get? ts k with
      | some t => same s t
      | none => false) && sameEntries rest ts

def sameAdditional : Additional Schema → Additional Schema → Bool
  | .unspecified, .unspecified => true
  | .allowed a, .allowed b => a == b
  | .schema s, .schema t => same s t
  | _, _ => false

def sameOption : Option Schema → Option Schema → Bool
  | none, none => true
  | some s, some t => same s t
  | _, _ => false

def sameBranches : Option (List Schema) → Option (List Schema) → Bool
  | none, none => true
  | some ss, some ts => sameList ss ts
  | _, _ => false

def sameList : List Schema → List Schema → Bool
  | [], [] => true
  | s :: ss, t :: ts => same s t && sameList ss ts
  | _, _ => false

end

instance : BEq Schema := ⟨same⟩

end Schema

end DataSchema
