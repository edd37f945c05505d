import DataSchema.Entries
import DataSchema.Number.Decimal
import DataSchema.Text.Quoted

/-!
JSON values, with the order of object members and the two kinds of numbers kept.

A number is an integer of the two 64-bit ranges or a finite double; `1` and `1.0` are different
values. Two values are the same (`==`) when they differ at most in the order of object members, and
in the sign of a zero.
-/

namespace DataSchema

/-- `2 ^ 63`, the least natural number above the signed integers of 64 bits. -/
abbrev Whole.signedLimit : Nat := 9223372036854775808

/-- An integer that fits 64 bits, signed or unsigned. -/
structure Whole where
  val : Int
  inRange : -(Whole.signedLimit : Int) ≤ val ∧ val < UInt64.size
  deriving DecidableEq

namespace Whole

def ofInt? (n : Int) : Option Whole :=
  if h : -(signedLimit : Int) ≤ n ∧ n < UInt64.size then some ⟨n, h⟩ else none

/-- The nearest double; none is out of reach at this size. -/
def toDouble (n : Whole) : Binary64 := (Binary64.ofInt? n.val).getD default

def ofBool (b : Bool) : Whole := if b then ⟨1, by decide⟩ else ⟨0, by decide⟩

end Whole

/-- A JSON number. -/
inductive Number where
  | whole (n : Whole)
  | double (x : Binary64)
  deriving DecidableEq

namespace Number

def toDouble : Number → Binary64
  | .whole n => n.toDouble
  | .double x => x

/-- The same representation and the same value. -/
def same : Number → Number → Bool
  | .whole m, .whole n => m.val == n.val
  | .double x, .double y => x.equals y
  | _, _ => false

/-- An integer, or a double without a fraction. -/
def isIntegral : Number → Bool
  | .whole _ => true
  | .double x => x.isIntegral

/-- Shortest digits, with a fraction or an exponent always shown; an exponent from the sixteenth power
of ten up and below the fifth negative one. -/
def doubleText (x : Binary64) : String :=
  let d := x.shortest
  let body := if -5 ≤ d.magnitude ∧ d.magnitude ≤ 15 then d.positionalFraction else d.scientific
  String.ofList (if x.negative then '-' :: body else body)

def text : Number → String
  | .whole n => toString n.val
  | .double x => doubleText x

end Number

/-- A JSON value. -/
inductive Json where
  | null
  | bool (b : Bool)
  | number (n : Number)
  | string (s : String)
  | array (items : List Json)
  | object (members : List (String × Json))

namespace Json

instance : Inhabited Json := ⟨.null⟩

def isNull : Json → Bool
  | .null => true
  | _ => false

/-- The value of a member; nothing for a value that is not an object. -/
def member? (value : Json) (key : String) : Option Json :=
  match value with
  | .object members => Entries.get? members key
  | _ => none

def ofNat (n : Nat) : Json := ((Whole.ofInt? n).map (.number ∘ .whole)).getD .null

def ofDouble (x : Binary64) : Json := .number (.double x)

mutual

/-- Equality up to the order of members. -/
def same : Json → Json → Bool
  | .null, .null => true
  | .bool a, .bool b => a == b
  | .number m, .number n => m.same n
  | .string s, .string t => s == t
  | .array xs, .array ys => sameItems xs ys
  | .object ms, .object ns => ms.length == ns.length && sameMembers ms ns
  | _, _ => false

def sameItems : List Json → List Json → Bool
  | [], [] => true
  | x :: xs, y :: ys => same x y && sameItems xs ys
  | _, _ => false

/-- Every member of the first list has an equal one under its key in the second. -/
def sameMembers : List (String × Json) → List (String × Json) → Bool
  | [], _ => true
  | (k, x) :: rest, ns =>
    (match Entries.get? ns k with
      | some y => same x y
      | none => false) && sameMembers rest ns

end

instance : BEq Json := ⟨same⟩

/-! ### Writing -/

mutual

/-- Compact text, members in their order. -/
def render : Json → String
  | .null => "null"
  | .bool true => "true"
  | .bool false => "false"
  | .number n => n.text
  | .string s => Text.Quoted.encode s
  | .array xs => "[" ++ renderItems xs ++ "]"
  | .object ms => "\x7b" ++ renderMembers ms ++ "\x7d"

def renderItems : List Json → String
  | [] => ""
  | [x] => render x
  | x :: rest => render x ++ "," ++ renderItems rest

def renderMembers : List (String × Json) → String
  | [] => ""
  | [(k, x)] => Text.Quoted.encode k ++ ":" ++ render x
  | (k, x) :: rest => Text.Quoted.encode k ++ ":" ++ render x ++ "," ++ renderMembers rest

end

end Json

end DataSchema
