import DataSchema.Pattern.Engine
import DataSchema.Schema.Combination

/-!
Operations on the properties of an object schema.

Each operation checks its precondition first: most need an object schema that is closed and without
combinations, and names that are declared. Operations keep the order of properties; a new property goes
last. The required names are a list in the order in which they were marked, and no list at all when none
is left.
-/

namespace DataSchema.Schema

/-! ### Preconditions -/

def ensureObject (s : Schema) (op : Operation) : Except ReshapeError Unit :=
  if s.isObject then .ok () else .error (.notObject op)

def ensureSimple (s : Schema) (op : Operation) : Except ReshapeError Unit :=
  if s.isSimpleObject then .ok () else .error (.notSimpleObject op)

def ensureNoCombination (s : Schema) (op : Operation) : Except ReshapeError Unit :=
  if s.hasCombination then .error (.combination op) else s.ensureObject op

def ensureDeclared (s : Schema) (names : List String) : Except ReshapeError Unit :=
  match names.find? (!s.declares ·) with
  | some name => .error (.missingProperty name)
  | none => .ok ()

/-- The named properties, which must be declared, or all of them. -/
def targets (s : Schema) : Option (List String) → Except ReshapeError (List String)
  | some names => do
    s.ensureDeclared names
    return names
  | none => .ok s.propertyNames

/-! ### Required names -/

/-- The required names; an empty list is stored as none. -/
def setRequired (s : Schema) (names : List String) : Schema :=
  { s with required := if names.isEmpty then none else some names }

def markRequired (s : Schema) (name : String) : Schema :=
  if s.isRequired name then s else s.setRequired (s.requiredNames ++ [name])

def unmarkRequired (s : Schema) (name : String) : Schema :=
  if s.isRequired name then s.setRequired (s.requiredNames.filter (· != name)) else s

/-! ### Adding and removing -/

/-- Replaces the schema of a property where it stands, or adds it last. -/
def putProperty (s : Schema) (name : String) (child : Schema) : Schema :=
  { s with properties := Entries.put s.properties name child }

def modifyProperty (s : Schema) (name : String) (f : Schema → Schema) : Schema :=
  { s with properties := Entries.modify s.properties name f }

/-- Adds a property that is not declared yet. -/
def addProperty (s : Schema) (name : String) (child : Schema) (required nullable : Bool) :
    Except ReshapeError Schema := do
  s.ensureObject .addProperty
  if s.declares name then .error (.duplicateProperty name)
  else
    let added := s.putProperty name (if nullable then { child with nullable := true } else child)
    return if required then added.markRequired name else added

/-- How a property is added in bulk. -/
inductive PropertySpec where
  | required (schema : Schema)
  | optional (schema : Schema)
  /-- An optional property of either schema. -/
  | union (schema alternate : Schema)

namespace PropertySpec

def schema : PropertySpec → Schema
  | .required s => s
  | .optional s => s
  | .union s t => either s t

def isRequired : PropertySpec → Bool
  | .required _ => true
  | _ => false

end PropertySpec

/-- The first name that is declared already or comes twice. -/
def firstDuplicate? (s : Schema) (seen : List String) : List String → Option String
  | [] => none
  | name :: rest =>
    if s.declares name || seen.contains name then some name else s.firstDuplicate? (name :: seen) rest

/-- Adds properties of which no name is declared yet or comes twice; all names are checked first. -/
def addProperties (s : Schema) (entries : List (String × PropertySpec)) :
    Except ReshapeError Schema := do
  s.ensureObject .addProperties
  match s.firstDuplicate? [] (entries.map Prod.fst) with
  | some name => .error (.duplicateProperty name)
  | none => .ok (entries.foldl (fun s (name, spec) =>
      (if spec.isRequired then s.markRequired name else s).putProperty name spec.schema) s)

def removeProperty (s : Schema) (name : String) : Except ReshapeError Schema := do
  s.ensureNoCombination .removeProperty
  s.ensureDeclared [name]
  return { s with properties := Entries.erase s.properties name }.unmarkRequired name

/-! ### Requiredness and names -/

/-- Makes properties optional, which drops their defaults. -/
def setOptionalProperties (s : Schema) (names : List String) : Except ReshapeError Schema := do
  s.ensureSimple .setOptional
  s.ensureDeclared names
  return names.foldl (fun s name => (s.unmarkRequired name).modifyProperty name withoutDefault) s

def setRequiredProperties (s : Schema) (names : List String) : Except ReshapeError Schema := do
  s.ensureSimple .setRequired
  s.ensureDeclared names
  return names.foldl markRequired s

def renameKey (old new : String) (entry : String × Schema) : String × Schema :=
  if entry.1 = old then (new, entry.2) else entry

/-- Gives a property another name where it stands; its name must be free, or the same. -/
def renameAs (s : Schema) (op : Operation) (old new : String) (required : Bool) :
    Except ReshapeError Schema := do
  s.ensureSimple op
  s.ensureDeclared [old]
  if old ≠ new ∧ s.declares new then .error (.duplicateProperty new)
  else
    let renamed := { s with properties := s.properties.map (renameKey old new) }.unmarkRequired old
    return if required then renamed.markRequired new else renamed.modifyProperty new withoutDefault

/-- Renames a property, which is required afterwards. -/
def renameProperty (s : Schema) (old new : String) : Except ReshapeError Schema :=
  s.renameAs .rename old new true

/-- Renames a property, which is optional afterwards and has no default. -/
def renameOptionalProperty (s : Schema) (old new : String) : Except ReshapeError Schema :=
  s.renameAs .renameOptional old new false

/-! ### Choosing -/

/-- Keeps the named properties, which must be declared. -/
def keepProperties (s : Schema) (op : Operation) (names : List String) :
    Except ReshapeError Schema := do
  s.ensureNoCombination op
  s.ensureDeclared names
  return { s with properties := s.properties.filter (names.contains ·.1) }.setRequired
    (s.requiredNames.filter names.contains)

/-- Keeps the named properties and closes the schema. -/
def pickProperties (s : Schema) (names : List String) : Except ReshapeError Schema := do
  return { ← s.keepProperties .pick names with additional := .allowed false }

/-- The schema that governed undeclared members, if there may be any. -/
def undeclaredSchema? (s : Schema) : Option Schema :=
  match s.additional with
  | .allowed false => none
  | .schema t => some t
  | _ => some {}

/-- Keeps the named properties. With extra names the schema is closed, and each extra name becomes an
optional property of the schema that governed undeclared members. -/
def pickAdditionalProperties (s : Schema) (names : List String) (extra : Option (List String)) :
    Except ReshapeError Schema := do
  let picked ← s.keepProperties .pickAdditional names
  match extra with
  | none => return picked
  | some extra =>
    let widened := match s.undeclaredSchema? with
      | none => picked
      | some t => extra.foldl (fun p name => if p.declares name then p else p.putProperty name t) picked
    return { widened with additional := .allowed false }

/-- Keeps the properties that are not named, and closes the schema. -/
def omitProperties (s : Schema) (names : List String) : Except ReshapeError Schema := do
  s.ensureNoCombination .omitProperties
  s.pickProperties (s.propertyNames.filter (!names.contains ·))

/-! ### Changing the schema of a property -/

/-- Lets the named properties, or all, be of another schema too. -/
def transformProperties (s alternate : Schema) (names : Option (List String)) :
    Except ReshapeError Schema := do
  s.ensureSimple .transform
  let names ← s.targets names
  return names.foldl (fun s name => s.modifyProperty name (either · alternate)) s

/-- The schema or an array of it, unless it is an array already. -/
def orArray (constraints : Option ArrayFacets) (s : Schema) : Schema :=
  if s.kind = some .array then s
  else either s { arrayOf s with array := constraints.getD {} }

/-- Lets the named properties, or all, be arrays of their schema too. -/
def transformPropertiesToArray (s : Schema) (names : Option (List String))
    (constraints : Option ArrayFacets) : Except ReshapeError Schema := do
  s.ensureSimple .transformToArray
  let names ← s.targets names
  return names.foldl (fun s name => s.modifyProperty name (orArray constraints)) s

def isArrayOf (array element : Schema) : Bool :=
  array.kind == some .array && array.items.any (·.same element)

/-- The schema itself where it is a union of a schema and an array of it, in either order. -/
def elementOfUnion? (s : Schema) : Option Schema :=
  match s.anyOf <|> s.oneOf with
  | some [first, second] =>
    if isArrayOf first second then some second
    else if isArrayOf second first then some first
    else none
  | _ => none

def unwrapArray (s : Schema) : Schema := s.elementOfUnion?.getD s

/-- Undoes `transformPropertiesToArray` on the named properties, or all. -/
def unwrapArrayProperties (s : Schema) (names : Option (List String)) :
    Except ReshapeError Schema := do
  s.ensureSimple .unwrapArray
  let names ← s.targets names
  return names.foldl (fun s name => s.modifyProperty name unwrapArray) s

/-- The schema of a property that is to be replaced. -/
def replaceable (s : Schema) (name : String) : Except ReshapeError Schema := do
  s.ensureObject .replace
  match Entries.get? s.properties name with
  | some child => .ok child
  | none => .error (.missingProperty name)

/-- Replaces the schema of a property by what the function makes of it. -/
def replacePropertyWith (s : Schema) (name : String) (f : Schema → Except ReshapeError Schema) :
    Except ReshapeError Schema := do
  let child ← f (← s.replaceable name)
  return s.putProperty name child

def replaceProperty (s : Schema) (name : String) (child : Schema) : Except ReshapeError Schema :=
  s.replacePropertyWith name fun _ => .ok child

/-- Replaces the schema of a property, or adds a required one. -/
def addOrReplaceProperty (s : Schema) (name : String) (child : Schema) :
    Except ReshapeError Schema := do
  s.ensureObject .addOrReplace
  if s.declares name then return s.putProperty name child
  else s.addProperty name child true false

/-! ### Members beyond the properties -/

/-- Opens a closed schema, for any member or for those of a schema. -/
def addAdditionalProperties (s : Schema) (child : Option Schema) : Except ReshapeError Schema := do
  s.ensureObject .addAdditional
  if s.isOpen then .error .alreadyOpen
  else return { s with additional := child.elim (.allowed true) .schema }

/-- Governs the members whose name starts with a text and goes on with a match of a pattern. -/
def addPatternProperty [Pattern.Engine] (s : Schema) (start suffix : String) (child : Schema) :
    Except ReshapeError Schema := do
  s.ensureSimple .addPattern
  let pattern := "^" ++ Pattern.escapeLiteral start ++ suffix
  if !Pattern.isValid pattern then .error (.invalidPattern pattern)
  else if Entries.has s.patternProperties pattern then .error (.duplicateProperty pattern)
  else return { s with patternProperties := Entries.put s.patternProperties pattern child }

/-! ### Descriptions -/

/-- The descriptions to set; those left out stay as they are. -/
structure MetadataChanges where
  title : Option String := none
  description : Option String := none
  examples : Option (List Json) := none
  deprecated : Option Bool := none
  readOnly : Option Bool := none
  writeOnly : Option Bool := none

def cloneWith (s : Schema) (changes : MetadataChanges) : Schema :=
  { s with metadata := {
      title := changes.title <|> s.metadata.title
      description := changes.description <|> s.metadata.description
      examples := changes.examples <|> s.metadata.examples
      deprecated := changes.deprecated.getD s.metadata.deprecated
      readOnly := changes.readOnly.getD s.metadata.readOnly
      writeOnly := changes.writeOnly.getD s.metadata.writeOnly } }

/-! ### Nested schemas -/

def property (s : Schema) (name : String) : Except ReshapeError Schema :=
  match Entries.get? s.properties name with
  | some child => .ok child
  | none => .error (.missingProperty name)

def element (s : Schema) : Except ReshapeError Schema :=
  match s.items with
  | some child => .ok child
  | none => .error .notArray

end DataSchema.Schema
