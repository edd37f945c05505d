import DataSchema.Validation.Facets
import DataSchema.Validation.Options
import DataSchema.Validation.Outcome

/-!
Validating a value against a schema.

A null that the schema takes beside its kind is left alone. Any other value must be of the kind, or be
converted to it; one that cannot be is reported and looked at no further. Then come the facets of the
value itself, its elements or members, and the combinations. An object is first changed as the policy
says: extra members dropped, then defaults filled in. Every branch of `allOf` works on the value in
place; a branch of the other combinations works on a copy, which takes the place of the value if that
branch decides the outcome.
-/

namespace DataSchema

namespace Options

/-- Does the first finding end the run? -/
def stops (o : Options) : Bool := !o.allErrors

end Options

variable [Pattern.Engine]

namespace Schema

/-! ### Kinds -/

/-- The value as a value of the schema's kind, if it is one or becomes one. -/
def admit? (o : Options) (s : Schema) (value : Json) : Option Json :=
  match s.kind with
  | none => some value
  | some kind =>
    if value.hasKind kind then some value
    else if o.coerceTypes then value.coerce? kind
    else none

/-- The violation of a value that cannot be of the kind. -/
def kindViolations (s : Schema) : List Violation :=
  s.kind.toList.map fun kind => .type kind s.nullable

/-- An object as it is before its keys are looked at. -/
def prepare (o : Options) (s : Schema) (members : List (String × Json)) : List (String × Json) :=
  let kept := if o.removeAdditional then s.dropExtra members else members
  if o.useDefaults then s.fillDefaults kept else kept

/-! ### Combinations -/

/-- The first branch that passes decides the value; if none does, all findings are kept. -/
def anyOfOutcome (value : Json) (branches : List (Outcome Json)) : Outcome Json :=
  match branches.find? (·.passes) with
  | some branch => branch
  | none => ⟨value, branches.flatMap (·.findings) ++ [.here .anyOf]⟩

/-- The only branch that passes decides the value; if none does, all findings are kept. -/
def oneOfOutcome (value : Json) (branches : List (Outcome Json)) : Outcome Json :=
  match branches.filter (·.passes) with
  | [branch] => branch
  | [] => ⟨value, branches.flatMap (·.findings) ++ [.here .oneOf]⟩
  | _ => .broken value [.oneOf]

/-- The value must not pass the branch. -/
def notOutcome (value : Json) (branch : Outcome Json) : Outcome Json :=
  if branch.passes then .broken value [.not] else .ok value

/-- Does a branch break off that `anyOf` comes to? No branch is run behind the first one that passes. -/
def anyBreaksOff : List (Run Json) → Bool
  | [] => false
  | branch :: rest => branch.breaksOff || (!branch.passes && anyBreaksOff rest)

/-- The outcome of `anyOf` by the runs of its branches. -/
def anyOfRun (value : Json) (branches : List (Run Json)) : Run Json :=
  ⟨anyOfOutcome value (branches.map (·.toOutcome)), anyBreaksOff branches⟩

/-- The outcome of `oneOf` by the runs of its branches, which are all run. -/
def oneOfRun (value : Json) (branches : List (Run Json)) : Run Json :=
  ⟨oneOfOutcome value (branches.map (·.toOutcome)), branches.any (·.breaksOff)⟩

def notRun (value : Json) (branch : Run Json) : Run Json :=
  ⟨notOutcome value branch.toOutcome, branch.breaksOff⟩

/-! ### The whole tree -/

mutual

/-- Validates a value. With `listed`, a finding in an element ends the run over the elements of the
value. -/
def run (o : Options) (listed : Bool) : Schema → Json → Run Json
  | s@{ properties := ps, patternProperties := pps, additional := ad, items := it, oneOf := one,
        allOf := all, anyOf := any, not := no, .. }, value =>
    if value.isNull && s.nullable then .ok value
    else
      match s.admit? o value with
      | none => .broken value s.kindViolations
      | some value =>
        (Run.broken value (s.valueViolations value)).andThen o.stops (fun value =>
          match value with
          | .string text => ⟨.broken value (s.text.violations text), s.text.breaksOff text⟩
          | .number n => .broken value (s.number.violations n.toDouble)
          | .array items =>
            ((Run.broken items (s.array.violations items)).andThen o.stops fun items =>
              runItems o listed it items).map .array
          | .object members =>
            let members := s.prepare o members
            ((Run.broken members (s.keyViolations members)).andThen o.stops fun members =>
              (runProperties o ps members).andThen o.stops fun members =>
              (Run.eachMember o.stops (fun key value =>
                if s.declares key then .ok value else runPatterns o pps key value)
                members).andThen o.stops fun members =>
              runAdditional o s.isExtra ad members).map .object
          | value => .ok value) |>.andThen o.stops fun value =>
        (runAll o listed all value).andThen o.stops fun value =>
        (runAny o any value).andThen o.stops fun value =>
        (runOne o one value).andThen o.stops fun value =>
        runNot o no value

def runItems (o : Options) (listed : Bool) : Option Schema → List Json → Run (List Json)
  | none, items => .ok items
  | some s, items => Run.eachItem (o.stops || listed) (fun item => run o false s item) 0 items

/-- The declared members, in the order of the declarations. -/
def runProperties (o : Options) :
    List (String × Schema) → List (String × Json) → Run (List (String × Json))
  | [], members => .ok members
  | (name, s) :: rest, members =>
    (Run.atMember name (fun value => run o false s value) members).andThen o.stops
      fun members => runProperties o rest members

/-- A value under every pattern that accepts its key. -/
def runPatterns (o : Options) : List (String × Schema) → String → Json → Run Json
  | [], _, value => .ok value
  | (pattern, s) :: rest, key, value =>
    (if Pattern.accepts pattern key then run o false s value else .ok value).andThen o.stops
      fun value => runPatterns o rest key value

def runAdditional (o : Options) (isExtra : String → Bool) :
    Additional Schema → List (String × Json) → Run (List (String × Json))
  | .schema s, members =>
    Run.eachMember o.stops (fun key value =>
      if isExtra key then run o false s value else .ok value) members
  | _, members => .ok members

def runAll (o : Options) (listed : Bool) : Option (List Schema) → Json → Run Json
  | none, value => .ok value
  | some ss, value => runInTurn o listed ss value

/-- Every branch on what the one before it left. -/
def runInTurn (o : Options) (listed : Bool) : List Schema → Json → Run Json
  | [], value => .ok value
  | s :: rest, value =>
    (run o listed s value).andThen o.stops fun value => runInTurn o listed rest value

/-- Every branch on the value itself. -/
def runEach (o : Options) : List Schema → Json → List (Run Json)
  | [], _ => []
  | s :: rest, value => run o false s value :: runEach o rest value

def runAny (o : Options) : Option (List Schema) → Json → Run Json
  | some (s :: rest), value => anyOfRun value (runEach o (s :: rest) value)
  | _, value => .ok value

def runOne (o : Options) : Option (List Schema) → Json → Run Json
  | some (s :: rest), value => oneOfRun value (runEach o (s :: rest) value)
  | _, value => .ok value

def runNot (o : Options) : Option Schema → Json → Run Json
  | none, value => .ok value
  | some s, value => notRun value (run o false s value)

end

/-- The outcome of a run that does not break off. -/
def evaluate (o : Options) (listed : Bool) (s : Schema) (value : Json) : Outcome Json :=
  (s.run o listed value).toOutcome

end Schema

end DataSchema
