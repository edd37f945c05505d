import DataSchema.Json.Fields

/-!
Types whose values can be read from JSON and written to it.

Integers of a type are whole numbers within its range, never doubles; a double is any number. Null is no
value in an optional one. A map is read in the order of its keys.
-/

namespace DataSchema

class Typed (α : Type) where
  ofJson? : Json → Option α
  toJson : α → Json

namespace Typed

/-- A whole number of a range, from its lower end up to but not including its upper end. -/
def whole? (low high : Int) : Json → Option Int
  | .number (.whole n) => if low ≤ n.val ∧ n.val < high then some n.val else none
  | _ => none

def natural? (high : Nat) (value : Json) : Option Nat := (whole? 0 high value).map Int.toNat

def wholeJson (n : Int) : Json := ((Whole.ofInt? n).map (.number ∘ .whole)).getD .null

instance : Typed UInt8 := ⟨fun v => (natural? UInt8.size v).map UInt8.ofNat, fun n => .ofNat n.toNat⟩
instance : Typed UInt32 := ⟨fun v => (natural? UInt32.size v).map UInt32.ofNat, fun n => .ofNat n.toNat⟩
instance : Typed UInt64 := ⟨fun v => (natural? UInt64.size v).map UInt64.ofNat, fun n => .ofNat n.toNat⟩

instance : Typed Int64 :=
  ⟨fun v => (whole? (-Whole.signedLimit) Whole.signedLimit v).map Int64.ofInt, fun n => wholeJson n.toInt⟩

instance : Typed Binary64 := ⟨Read.double?, .ofDouble⟩
instance : Typed Bool := ⟨Read.bool?, .bool⟩
instance : Typed String := ⟨Read.string?, .string⟩

variable {α : Type} [Typed α]

instance : Typed (Option α) := ⟨Read.optional ofJson?, fun v => (v.map toJson).getD .null⟩

instance : Typed (List α) where
  ofJson? value := (Read.array? value).bind fun items => items.mapM ofJson?
  toJson items := .array (items.map toJson)

def entry? (e : String × Json) : Option (String × α) := (ofJson? e.2).map (e.1, ·)

def keyLe (a b : String × α) : Bool := !decide (b.1 < a.1)

instance : Typed (List (String × α)) where
  ofJson?
    | .object members => (members.mapM entry?).map fun entries => entries.mergeSort keyLe
    | _ => none
  toJson entries := .object (Entries.mapValues toJson entries)

end Typed

end DataSchema
