import DataSchema.Json.Basic
import DataSchema.Schema.Error

/-!
Registries: schema documents under names.

Documents stay as they are until they are asked for, so that references between them can be followed.
Inserting under a present name replaces the document. Names are listed in the order of their characters.
-/

namespace DataSchema

/-- Where the documents of a registry come from. -/
inductive Source where
  | memory
  | directory (path : String)
  | bundle (path : String)
  /-- The first of several sources that could be loaded. -/
  | chain (sources : List Source)

/-- Why documents cannot be loaded or followed. -/
inductive RegistryError where
  | unreadableFile
  | invalidJson
  | invalidYaml
  | noSource
  | unknownSchema (name : String)
  /-- A reference leads nowhere. -/
  | unresolved (reference : String)
  /-- A reference leads back to itself. -/
  | cycle (reference : String)
  | schema (error : ReshapeError)

def RegistryError.message : RegistryError → String
  | .unreadableFile => "I/O error"
  | .invalidJson => "JSON error"
  | .invalidYaml => "YAML error"
  | .noSource => "no schema sources available"
  | .unknownSchema name => "unknown schema '" ++ name ++ "'"
  | .unresolved reference => "unresolved reference '" ++ reference ++ "'"
  | .cycle reference => "reference cycle through '" ++ reference ++ "'"
  | .schema error => error.message

structure Registry where
  documents : List (String × Json) := []
  source : Source := .memory

namespace Registry

def get? (r : Registry) (name : String) : Option Json := Entries.get? r.documents name

def contains (r : Registry) (name : String) : Bool := Entries.has r.documents name

def insert (r : Registry) (name : String) (document : Json) : Registry :=
  { r with documents := Entries.put r.documents name document }

def size (r : Registry) : Nat := r.documents.length

def isEmpty (r : Registry) : Bool := r.documents.isEmpty

def names (r : Registry) : List String :=
  (Entries.keys r.documents).mergeSort fun a b => !decide (b < a)

end Registry

end DataSchema
