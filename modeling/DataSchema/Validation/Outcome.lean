import DataSchema.Json.Basic
import DataSchema.Validation.Violation

/-!
What validating a value gives: the value, perhaps changed, and what was found.

Rules are run one after another, each on the value that the one before it left. When only the first
error counts, a rule is not run after one that found something.

A check can break off, and the run it is part of then ends without an outcome. The mark of it is kept
beside the outcome: a run that is marked has broken off somewhere, and the outcome, for which the text
it broke off at counts as refused, is not one that anybody gets to see.
-/

namespace DataSchema

structure Outcome (α : Type) where
  value : α
  findings : List Finding

namespace Outcome

variable {α : Type}

/-- The value as it is, with nothing found. -/
def ok (value : α) : Outcome α := ⟨value, []⟩

/-- The value as it is, with its own violations. -/
def broken (value : α) (violations : List Violation) : Outcome α :=
  ⟨value, violations.map .here⟩

def passes (x : Outcome α) : Bool := x.findings.isEmpty

def map {β : Type} (f : α → β) (x : Outcome α) : Outcome β := ⟨f x.value, x.findings⟩

/-- The outcome of a part, as seen from the container that holds it under a key. -/
def under (key : String) (x : Outcome α) : Outcome α :=
  ⟨x.value, x.findings.map (·.under key)⟩

end Outcome

/-- The outcome of rules that were run, and whether one of them broke off. -/
structure Run (α : Type) extends Outcome α where
  breaksOff : Bool

namespace Run

variable {α β γ : Type}

/-- The value as it is, with nothing found. -/
def ok (value : α) : Run α := ⟨.ok value, false⟩

/-- The value as it is, with its own violations. -/
def broken (value : α) (violations : List Violation) : Run α := ⟨.broken value violations, false⟩

def map (f : α → β) (x : Run α) : Run β := ⟨x.toOutcome.map f, x.breaksOff⟩

def under (key : String) (x : Run α) : Run α := ⟨x.toOutcome.under key, x.breaksOff⟩

/-- Two runs, one behind the other, that leave what is put together of what each leaves. -/
def both (f : α → β → γ) (x : Run α) (y : Run β) : Run γ :=
  ⟨⟨f x.value y.value, x.findings ++ y.findings⟩, x.breaksOff || y.breaksOff⟩

/-- Runs the next rule on the value, unless something was found and the run is to stop then. -/
def andThen (x : Run α) (stop : Bool) (next : α → Run α) : Run α :=
  if stop && !x.passes then x else x.both (fun _ value => value) (next x.value)

/-! ### Containers -/

/-- Runs a rule on every element in turn, the first one having the given index. A finding ends the run,
if it is to stop then; the elements after it stay as they are. -/
def eachItem (stop : Bool) (rule : α → Run α) (index : Nat) : List α → Run (List α)
  | [] => ok []
  | x :: rest =>
    let first := (rule x).under (toString index)
    if stop && !first.passes then first.map (· :: rest)
    else first.both (· :: ·) (eachItem stop rule (index + 1) rest)

/-- Runs a rule on the member under a key, if there is one. -/
def atMember (key : String) (rule : α → Run α) : List (String × α) → Run (List (String × α))
  | [] => ok []
  | (k, x) :: rest =>
    if k = key then ((rule x).under key).map fun x => (k, x) :: rest
    else (atMember key rule rest).map ((k, x) :: ·)

/-- Runs a rule on every member in turn, with the key of the member; a finding ends the run, if it is to
stop then. -/
def eachMember (stop : Bool) (rule : String → α → Run α) :
    List (String × α) → Run (List (String × α))
  | [] => ok []
  | (k, x) :: rest =>
    let first := (rule k x).under k
    if stop && !first.passes then first.map fun x => (k, x) :: rest
    else first.both (fun x rest => (k, x) :: rest) (eachMember stop rule rest)

end Run

end DataSchema
