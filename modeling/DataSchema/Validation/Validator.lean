import DataSchema.Validation.Check
import DataSchema.Validation.Evaluate

/-!
Validators: a schema that passed the check, under a fixed policy.

A validator reports what it found and hands back the value as it left it, whether the value passed or
not. A list is validated as an array, and the run over its elements ends with the first one that has a
finding. A run that breaks off reports nothing and hands nothing back.
-/

namespace DataSchema

/-- A value after validation, and the issues it has. -/
structure Report (α : Type) where
  value : α
  issues : List Issue

namespace Report

variable {α : Type}

def passes (r : Report α) : Bool := r.issues.isEmpty

/-- The report of an outcome, cut to its first finding unless all errors count. -/
def ofOutcome (o : Options) (x : Outcome α) : Report α where
  value := x.value
  issues := (if o.allErrors then x.findings else x.findings.take 1).map Finding.toIssue

/-- The report of a run; none if it breaks off. -/
def ofRun? (o : Options) (x : Run α) : Option (Report α) :=
  if x.breaksOff then none else some (ofOutcome o x.toOutcome)

end Report

variable [Pattern.Engine]

/-- A schema that can be validated against, and the policy that it was checked under. -/
structure Validator where
  schema : Schema
  options : Options
  checked : schema.check options.strict = .ok ()

namespace Validator

def compile (schema : Schema) (options : Options) : Except SchemaError Validator :=
  match h : schema.check options.strict with
  | .ok () => .ok ⟨schema, options, h⟩
  | .error e => .error e

/-- Does the run on the value break off? -/
def breaksOff (v : Validator) (value : Json) : Bool := (v.schema.run v.options false value).breaksOff

/-- The report on a value, as long as the run does not break off. -/
def validate (v : Validator) (value : Json) : Report Json :=
  .ofOutcome v.options (v.schema.evaluate v.options false value)

/-- Validates a value; none if the run breaks off. -/
def validate? (v : Validator) (value : Json) : Option (Report Json) :=
  Report.ofRun? v.options (v.schema.run v.options false value)

/-- The elements of an array; no other value has any. -/
def elements : Json → List Json
  | .array items => items
  | _ => []

/-- Does the run on the list break off? -/
def listBreaksOff (v : Validator) (values : List Json) : Bool :=
  (v.schema.run v.options true (.array values)).breaksOff

/-- The report on a list, as long as the run does not break off. -/
def validateList (v : Validator) (values : List Json) : Report (List Json) :=
  .ofOutcome v.options ((v.schema.evaluate v.options true (.array values)).map elements)

/-- Validates a list; none if the run breaks off. -/
def validateList? (v : Validator) (values : List Json) : Option (Report (List Json)) :=
  Report.ofRun? v.options ((v.schema.run v.options true (.array values)).map elements)

end Validator

end DataSchema
