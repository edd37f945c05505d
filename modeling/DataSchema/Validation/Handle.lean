import DataSchema.Json.Typed
import DataSchema.Validation.Validator

/-!
Schema handles: a schema with the policy it is validated under, and its compiled validators.

A handle has a policy of its own or follows a context. The first attempt to compile fixes the policy for
good, also when it fails; values and lists have a validator each, which is kept once it is compiled.
Configuring a handle gives it a policy of its own and drops the validators. What is derived from a handle
starts without validators, under the same policy or context.
-/

namespace DataSchema

/-- The place of a context among the contexts of a session. -/
abbrev ContextId := Nat

variable [Pattern.Engine]

structure Handle where
  schema : Schema
  context : ContextId
  /-- The handle's own policy. -/
  explicit : Option Options := none
  /-- The policy at the first attempt to compile. -/
  fixed : Option Options := none
  single : Option Validator := none
  list : Option Validator := none

/-- Why a value is not accepted. -/
inductive Rejection where
  | uncompiled (error : SchemaError)
  | invalid (issues : List Issue) (allErrors : Bool)
  | unreadable

namespace Handle

/-- The policy of a validator compiled now, where `current` is the value of the context. -/
def effective (h : Handle) (current : Options) : Options :=
  match h.fixed with
  | some o => o
  | none => h.explicit.getD current

/-- Fixes the policy. -/
def fix (h : Handle) (current : Options) : Handle := { h with fixed := some (h.effective current) }

/-- The handle with its validator for single values, compiled if there is none yet. -/
def withSingle (h : Handle) (current : Options) : Handle × Except SchemaError Validator :=
  match h.single with
  | some v => (h, .ok v)
  | none =>
    let h := h.fix current
    match Validator.compile h.schema (h.effective current) with
    | .ok v => ({ h with single := some v }, .ok v)
    | .error e => (h, .error e)

/-- Lists of at least one value, each governed by the schema. -/
def listSchema (s : Schema) : Schema := { Schema.arrayOf s with array := { minItems := some 1 } }

/-- The handle with its validator for lists, compiled if there is none yet. -/
def withList (h : Handle) (current : Options) : Handle × Except SchemaError Validator :=
  match h.list with
  | some v => (h, .ok v)
  | none =>
    let h := h.fix current
    match Validator.compile (listSchema h.schema) (h.effective current) with
    | .ok v => ({ h with list := some v }, .ok v)
    | .error e => (h, .error e)

/-- The result of a validation: the value as it was left, and why it was rejected, if it was. -/
abbrev Verdict (α : Type) := α × Option Rejection

/-- The verdict of a report. -/
def verdict {α : Type} (v : Validator) (r : Report α) : Verdict α :=
  (r.value, if r.passes then none else some (.invalid r.issues v.options.allErrors))

/-- Validates one value. There is no verdict if the run breaks off; what was compiled is kept. -/
def validate (h : Handle) (current : Options) (value : Json) : Handle × Option (Verdict Json) :=
  match h.withSingle current with
  | (h, .ok v) => (h, (v.validate? value).map (verdict v))
  | (h, .error e) => (h, some (value, some (.uncompiled e)))

/-- Validates a list of values; it ends with the first one that fails. The list is taken apart for the
run, so that nothing of it is left if the run breaks off. -/
def validateList (h : Handle) (current : Options) (values : List Json) :
    Handle × Option (Verdict (List Json)) :=
  match h.withList current with
  | (h, .ok v) => (h, (v.validateList? values).map (verdict v))
  | (h, .error e) => (h, some (values, some (.uncompiled e)))

/-- What a verdict on a value comes to, for one who wants the value as a value of a type. -/
def reading (α : Type) [Typed α] : Verdict Json → Except Rejection α
  | (_, some rejection) => .error rejection
  | (value, none) =>
    match Typed.ofJson? value with
    | some x => .ok x
    | none => .error .unreadable

/-- Validates one value and reads what it was left as. -/
def parse (α : Type) [Typed α] (h : Handle) (current : Options) (value : Json) :
    Handle × Option (Except Rejection α) :=
  match h.validate current value with
  | (h, verdict) => (h, verdict.map (reading α))

/-- Gives the handle a policy of its own: its effective one with the changes. -/
def configure (h : Handle) (current : Options) (changes : Overrides) : Handle where
  schema := h.schema
  context := h.context
  explicit := some ((h.effective current).withOverrides changes)

/-- A handle on another schema with the same policy or context. -/
def derive (h : Handle) (schema : Schema) : Handle where
  schema := schema
  context := h.context
  explicit := h.explicit

def clone (h : Handle) : Handle := h.derive h.schema

end Handle

end DataSchema
