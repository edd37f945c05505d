import DataSchema.Access.Update
import DataSchema.Json.Typed
import DataSchema.Pattern.Engine
import DataSchema.Schema.Basic

/-!
Accessors: a path, with the schema that governs the value there.

Moving along a key takes the schema of the property, else of the first pattern that accepts the key, else
of additional members; moving to an index takes the schema of elements. An accessor with a schema is
narrowed to a branch of a union by changing the schema. A transformed accessor reads and writes through
mappings, layer upon layer; it can be written only if every layer maps both ways.
-/

namespace DataSchema

variable [Pattern.Engine]

namespace Schema

/-- The schema of additional members. -/
def additionalSchema? (s : Schema) : Option Schema :=
  match s.additional with
  | .schema child => some child
  | _ => none

/-- The schema that governs the part a step leads to. -/
def part? (s : Schema) : Step → Option Schema
  | .key name =>
    Entries.get? s.properties name <|>
    (s.patternProperties.find? fun e => Pattern.accepts e.1 name).map Prod.snd <|>
    s.additionalSchema?
  | .index _ => s.items

/-- A branch of the union: of `oneOf`, or else of `anyOf`. -/
def branch? (s : Schema) (index : Nat) : Option Schema := (s.oneOf <|> s.anyOf).bind (·[index]?)

end Schema

structure Accessor where
  path : Path := []
  schema : Option Schema := none

namespace Accessor

/-- The accessor of a value that a schema governs. -/
def forSchema (s : Schema) : Accessor := { schema := some s }

/-- One step deeper. -/
def down (a : Accessor) (step : Step) : Accessor where
  path := a.path ++ [step]
  schema := a.schema.bind (·.part? step)

/-- Several steps deeper. -/
def along (a : Accessor) (path : Path) : Accessor := path.foldl down a

/-- Several steps deeper, by the text of a path. -/
def atPath (a : Accessor) (text : String) : Except AccessError Accessor :=
  ((Path.parse text).map a.along).mapError (.invalidPath text)

/-- The accessor of a path, without a schema. -/
def parse (text : String) : Except AccessError Accessor := ({} : Accessor).atPath text

/-- The same path, and schemas that are equal, or none. -/
def same (a b : Accessor) : Bool := decide (a.path = b.path) && Schema.sameOption a.schema b.schema

def get? (a : Accessor) (root : Shared) : Option Shared := root.at? a.path

/-- The value as a value of a type, if there is one. -/
def getAs? (α : Type) [Typed α] (a : Accessor) (root : Shared) : Except AccessError (Option α) :=
  match a.get? root with
  | none => .ok none
  | some value =>
    match Typed.ofJson? value.toJson with
    | some x => .ok (some x)
    | none => .error .unreadable

def set (a : Accessor) (root value : Shared) : Except AccessError Shared := root.replace a.path value

/-- Replaces the value by what a function makes of it. -/
def update (a : Accessor) (root : Shared) (f : Option Shared → Shared) : Except AccessError Shared :=
  a.set root (f (a.get? root))

/-- Changes the schema, if there is one, to that of a branch of a union. -/
def narrow (a : Accessor) (transform : Option (Schema → Except AccessError Schema)) :
    Except AccessError Accessor :=
  match a.schema, transform with
  | none, _ => .ok a
  | some _, none => .error (.narrowWithoutTransform a.path)
  | some s, some transform => (transform s).map fun s => { a with schema := some s }

/-- Narrows to a branch of the union that the schema is. -/
def narrowToBranch (a : Accessor) (index : Nat) : Except AccessError Accessor :=
  a.narrow (some fun s =>
    match s.branch? index with
    | some branch => .ok branch
    | none => .error (.noSuchBranch a.path index))

end Accessor

/-! ### Transformed accessors -/

/-- A mapping of what is read, and perhaps one of what is written, which is given the value that is there
before. -/
structure Mapping where
  get : Shared → Shared
  set : Option (Shared → Option Shared → Shared)

/-- An outer mapping on top of an inner one; it writes only if both do. -/
def Mapping.over (outer inner : Mapping) : Mapping where
  get := fun value => outer.get (inner.get value)
  set := do
    let setInner ← inner.set
    let setOuter ← outer.set
    return fun value prior => setInner (setOuter value (prior.map inner.get)) prior

structure Transformed where
  inner : Accessor
  mapping : Mapping

def Accessor.transform (a : Accessor) (mapping : Mapping) : Transformed := ⟨a, mapping⟩

namespace Transformed

def transform (t : Transformed) (mapping : Mapping) : Transformed :=
  { t with mapping := mapping.over t.mapping }

def isInvertible (t : Transformed) : Bool := t.mapping.set.isSome

def get? (t : Transformed) (root : Shared) : Option Shared := (t.inner.get? root).map t.mapping.get

def set (t : Transformed) (root value : Shared) : Except AccessError Shared :=
  match t.mapping.set with
  | some write => t.inner.set root (write value (t.inner.get? root))
  | none => .error (.noInverse t.inner.path)

end Transformed

end DataSchema
