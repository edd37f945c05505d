import DataSchema.Number.Numeral
import DataSchema.Schema.Basic
import DataSchema.Text.CharClass

/-!
Kinds of values, conversion of scalars between them, and equality up to the form of numbers.

A double without a fraction is an integer. A scalar of the wrong kind can be converted by the rules of
`Json.coerce?`; objects and arrays never are, and nothing becomes one. Two values are equivalent when
they differ at most in the order of members and in numbers that are the same double.
-/

namespace DataSchema

namespace Json

def isInteger : Json → Bool
  | .number n => n.isIntegral
  | _ => false

/-- Is the value of the kind? -/
def hasKind (value : Json) (kind : Kind) : Bool :=
  match kind, value with
  | .string, .string _ => true
  | .number, .number _ => true
  | .integer, value => value.isInteger
  | .boolean, .bool _ => true
  | .null, .null => true
  | .object, .object _ => true
  | .array, .array _ => true
  | _, _ => false

/-- The number of a text: an integer if it is a signed one of 64 bits, else the nearest double. White
space around it does not count. -/
def numberOfText? (text : String) : Option Json :=
  let cs := Text.trim text.toList
  match (Numeral.integer? cs).filter (fun n : Int => n < Whole.signedLimit) |>.bind Whole.ofInt? with
  | some n => some (.number (.whole n))
  | none => (Numeral.double? cs).map .ofDouble

def toNumber? : Json → Option Json
  | .string s => numberOfText? s
  | .bool b => some (.number (.whole (.ofBool b)))
  | .null => some (.number (.whole (.ofBool false)))
  | _ => none

/-- Is the number one of the values, as a double? -/
def isDouble (n : Number) (x : Nat) : Bool := n.toDouble.units == x * Binary64.unitsPerOne

/-- The scalar converted to a kind, where there is a rule for it. -/
def coerce? (kind : Kind) (value : Json) : Option Json :=
  match kind, value with
  | .string, .number n => some (.string n.text)
  | .string, .bool b => some (.string (if b then "true" else "false"))
  | .string, .null => some (.string "")
  | .number, value => value.toNumber?
  | .integer, value => value.toNumber?.filter isInteger
  | .boolean, .string "true" => some (.bool true)
  | .boolean, .string "false" => some (.bool false)
  | .boolean, .number n =>
    if isDouble n 1 then some (.bool true)
    else if isDouble n 0 then some (.bool false)
    else none
  | .boolean, .null => some (.bool false)
  | .null, .string "" => some .null
  | .null, .number n => if isDouble n 0 then some .null else none
  | .null, .bool false => some .null
  | _, _ => none

mutual

/-- Equality where numbers count as doubles, and the order of members does not count. -/
def equivalent : Json → Json → Bool
  | .null, .null => true
  | .bool a, .bool b => a == b
  | .number m, .number n => m.toDouble.equals n.toDouble
  | .string s, .string t => s == t
  | .array xs, .array ys => equivalentItems xs ys
  | .object ms, .object ns => ms.length == ns.length && equivalentMembers ms ns
  | _, _ => false

def equivalentItems : List Json → List Json → Bool
  | [], [] => true
  | x :: xs, y :: ys => equivalent x y && equivalentItems xs ys
  | _, _ => false

def equivalentMembers : List (String × Json) → List (String × Json) → Bool
  | [], _ => true
  | (k, x) :: rest, ns =>
    (match Entries.get? ns k with
      | some y => equivalent x y
      | none => false) && equivalentMembers rest ns

end

/-- The places of two equivalent elements, the later one first: the pair whose earlier element is last,
and of those the one whose later element is first. -/
def duplicate? : List Json → Option (Nat × Nat)
  | [] => none
  | x :: rest =>
    match duplicate? rest with
    | some (later, earlier) => some (later + 1, earlier + 1)
    | none => (rest.findIdx? (equivalent x)).map fun i => (i + 1, 0)

end Json

end DataSchema
