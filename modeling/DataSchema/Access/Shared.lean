import DataSchema.Json.Basic

/-!
Values whose containers are shared between versions.

Every array and every object carries the number under which it was made. Two containers are one and
the same exactly when their numbers agree, which is how an update shows what it left alone: it numbers
only what it makes anew. Numbers come from a supply that is handed on.
-/

namespace DataSchema

/-- A value with numbered containers. -/
inductive Shared where
  | null
  | bool (b : Bool)
  | number (n : Number)
  | string (s : String)
  | array (id : Nat) (items : List Shared)
  | object (id : Nat) (members : List (String × Shared))

namespace Shared

instance : Inhabited Shared := ⟨.null⟩

mutual

/-- Numbers every container of a value, from the supply on; the second part is the rest of the supply. -/
def ofJson (supply : Nat) : Json → Shared × Nat
  | .null => (.null, supply)
  | .bool b => (.bool b, supply)
  | .number n => (.number n, supply)
  | .string s => (.string s, supply)
  | .array xs =>
    let (items, next) := ofItems (supply + 1) xs
    (.array supply items, next)
  | .object ms =>
    let (members, next) := ofMembers (supply + 1) ms
    (.object supply members, next)

def ofItems (supply : Nat) : List Json → List Shared × Nat
  | [] => ([], supply)
  | x :: rest =>
    let (y, next) := ofJson supply x
    let (ys, next) := ofItems next rest
    (y :: ys, next)

def ofMembers (supply : Nat) : List (String × Json) → List (String × Shared) × Nat
  | [] => ([], supply)
  | (k, x) :: rest =>
    let (y, next) := ofJson supply x
    let (ys, next) := ofMembers next rest
    ((k, y) :: ys, next)

end

mutual

/-- The value without its numbers. -/
def toJson : Shared → Json
  | .null => .null
  | .bool b => .bool b
  | .number n => .number n
  | .string s => .string s
  | .array _ items => .array (itemsToJson items)
  | .object _ members => .object (membersToJson members)

def itemsToJson : List Shared → List Json
  | [] => []
  | x :: rest => toJson x :: itemsToJson rest

def membersToJson : List (String × Shared) → List (String × Json)
  | [] => []
  | (k, x) :: rest => (k, toJson x) :: membersToJson rest

end

/-- The name of the kind of value. -/
def kindName : Shared → String
  | .null => "null"
  | .bool _ => "boolean"
  | .number _ => "number"
  | .string _ => "string"
  | .array _ _ => "array"
  | .object _ _ => "object"

def isNull : Shared → Bool
  | .null => true
  | _ => false

def string? : Shared → Option String
  | .string s => some s
  | _ => none

def bool? : Shared → Option Bool
  | .bool b => some b
  | _ => none

/-- The number as the nearest double. -/
def double? : Shared → Option Binary64
  | .number n => some n.toDouble
  | _ => none

/-- The number, where it is a signed 64-bit integer. -/
def signed? : Shared → Option Whole
  | .number (.whole n) => if n.val < Whole.signedLimit then some n else none
  | _ => none

def items? : Shared → Option (List Shared)
  | .array _ items => some items
  | _ => none

def members? : Shared → Option (List (String × Shared))
  | .object _ members => some members
  | _ => none

/-- The value of a member of an object. -/
def member? (value : Shared) (key : String) : Option Shared :=
  value.members?.bind fun members => Entries.get? members key

/-- An element of an array. -/
def item? (value : Shared) (i : Nat) : Option Shared := value.items?.bind fun items => items[i]?

/-- Are the two values one container? Scalars are never shared. -/
def sharesWith : Shared → Shared → Bool
  | .array i _, .array j _ => i == j
  | .object i _, .object j _ => i == j
  | _, _ => false

/-- Equality of the values, whatever the numbers of their containers. -/
def same (x y : Shared) : Bool := x.toJson.same y.toJson

/-- A value made anew from what a scalar holds; a container makes null. -/
def rebuilt : Shared → Json
  | .bool b => .bool b
  | .string s => .string s
  | .number n => .number (match n with
    | .whole m => if m.val < Whole.signedLimit then .whole m else .double m.toDouble
    | n => n)
  | _ => .null

end Shared

end DataSchema
