import DataSchema.Json.Basic

/-!
Reading the values of a record from JSON.

A record is an object, of which unknown members are ignored, or an array of its fields in their order,
of which the last ones may be missing.
-/

namespace DataSchema

namespace Read

def string? : Json → Option String
  | .string s => some s
  | _ => none

def bool? : Json → Option Bool
  | .bool b => some b
  | _ => none

def array? : Json → Option (List Json)
  | .array xs => some xs
  | _ => none

/-- An integer of the unsigned 64-bit range; a double is none, whatever its value. -/
def count? : Json → Option UInt64
  | .number (.whole n) => if 0 ≤ n.val then some (UInt64.ofNat n.val.toNat) else none
  | _ => none

def double? : Json → Option Binary64
  | .number n => some n.toDouble
  | _ => none

def strings? : Json → Option (List String)
  | .array xs => xs.mapM string?
  | _ => none

/-- Null for an absent value, and any other value as `read` takes it. -/
def optional {α : Type} (read : Json → Option α) : Json → Option (Option α)
  | .null => some none
  | value => (read value).map some

/-- The fields of a record with the given names; an array must not be longer than they are. -/
def fields? (names : List String) : Json → Option (List (String × Json))
  | .object members => some members
  | .array values => if values.length ≤ names.length then some (names.zip values) else none
  | _ => none

/-- The value of a field, or what it is when it is missing. -/
def field {α : Type} (fields : List (String × Json)) (name : String) (missing : α)
    (read : Json → Option α) : Option α :=
  match Entries.get? fields name with
  | none => some missing
  | some value => read value

end Read

end DataSchema
