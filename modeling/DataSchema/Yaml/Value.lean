import DataSchema.Json.Basic
import DataSchema.Number.Numeral
import DataSchema.Text.Quoted
import DataSchema.Validation.Options
import DataSchema.Yaml.Node

/-!
What YAML nodes stand for.

A plain scalar without a tag is null, a boolean, a number, or else a string; any other scalar is a string,
unless a tag of the core types says what it is. Nodes with tags of their own stand for nothing. The keys
of a mapping are the texts of scalars, and a later value of a key takes the place of an earlier one.
Nodes nest at most 128 deep.
-/

namespace DataSchema.Yaml

/-! ### Scalars -/

def isNull (text : String) : Bool := ["null", "Null", "NULL", "~"].contains text

def bool? (text : String) : Option Bool :=
  if ["true", "True", "TRUE"].contains text then some true
  else if ["false", "False", "FALSE"].contains text then some false
  else none

/-- A zero before other digits, and digits only, after an optional sign: no number. -/
def isZeroLed (text : List Char) : Bool :=
  match (Numeral.splitSign text).2 with
  | '0' :: rest => !rest.isEmpty && rest.all Char.isDigit
  | _ => false

/-- The number of digits to a base. -/
def ofDigits? (base : Nat) (digits : List Char) : Option Nat :=
  if digits.isEmpty then none
  else
    digits.foldlM (fun n c => ((hexValue? c).filter (· < base)).map (n * base + ·)) 0

/-- The digits of a number without its sign, with the sign of their base. -/
def unsigned? : List Char → Option Nat
  | '0' :: 'x' :: rest => ofDigits? 16 rest
  | '0' :: 'o' :: rest => ofDigits? 8 rest
  | '0' :: 'b' :: rest => ofDigits? 2 rest
  | digits => ofDigits? 10 digits

/-- The integer of a text. -/
def integer? (text : String) : Option Int :=
  if isZeroLed text.toList then none
  else
    match text.toList with
    | '-' :: digits => (unsigned? digits).map fun n => -(n : Int)
    | '+' :: digits => (unsigned? digits).map fun n => (n : Int)
    | digits => (unsigned? digits).map fun n => (n : Int)

/-- The number of a text as a value: an integer of 64 bits, or a double. An integer that only 128 bits
hold stands for nothing, and neither infinities nor what is not a number have a value but null. -/
inductive Numeric where
  | value (v : Json)
  | tooWide
  | noNumber

/-- Is the integer one of 128 bits, signed or unsigned? -/
def isWide (n : Int) : Bool :=
  -170141183460469231731687303715884105728 ≤ n ∧ n < 340282366920938463463374607431768211456

/-- The double of a text. -/
def double? (text : String) : Option Json :=
  let cs := text.toList
  let unsignedText := match cs with
    | '+' :: rest => rest
    | cs => cs
  if isZeroLed cs then none
  else if ['+', '-'].contains (unsignedText.headD ' ') && cs.head? == some '+' then none
  else if [".inf", ".Inf", ".INF"].contains (String.ofList unsignedText) ||
      ["-.inf", "-.Inf", "-.INF", ".nan", ".NaN", ".NAN"].contains text then some .null
  else (Numeral.double? unsignedText).map .ofDouble

def numeric (text : String) : Numeric :=
  match integer? text with
  | some n =>
    match Whole.ofInt? n with
    | some n => .value (.number (.whole n))
    | none => if isWide n then .tooWide else (double? text).elim .noNumber .value
  | none => (double? text).elim .noNumber .value

/-- The value of a plain scalar without a tag. -/
def plainValue? (text : String) : Option Json :=
  if text == "" || isNull text then some .null
  else
    match bool? text with
    | some b => some (.bool b)
    | none =>
      match numeric text with
      | .value v => some v
      | .tooWide => none
      | .noNumber => some (.string text)

/-- A tag of the document's own. -/
def isLocal (tag : Option String) : Bool := tag.any (·.startsWith "!")

def scalarValue? (tag : Option String) (text : String) (style : Style) : Option Json :=
  match tag with
  | none => if style = .plain then plainValue? text else some (.string text)
  | some "tag:yaml.org,2002:null" => if isNull text then some .null else none
  | some "tag:yaml.org,2002:bool" => (bool? text).map .bool
  | some "tag:yaml.org,2002:int" => ((integer? text).bind Whole.ofInt?).map (.number ∘ .whole)
  | some "tag:yaml.org,2002:float" => double? text
  | tag => if isLocal tag then none else some (.string text)

namespace Node

/-- The text of a scalar. -/
def text? : Node → Option String
  | .scalar _ text _ => some text
  | _ => none

mutual

/-- The value of a node, with containers nested at most as deep as the first argument says. -/
def value? (depth : Nat) : Node → Option Json
  | .scalar tag text style => scalarValue? tag text style
  | .sequence tag items =>
    if isLocal tag || depth = 0 then none else (itemValues? (depth - 1) items).map .array
  | .mapping tag entries =>
    if isLocal tag || depth = 0 then none
    else (entryValues? (depth - 1) entries).map fun es => .object (Entries.ofList es)

def itemValues? (depth : Nat) : List Node → Option (List Json)
  | [] => some []
  | x :: rest => do
    let y ← value? depth x
    let ys ← itemValues? depth rest
    return y :: ys

def entryValues? (depth : Nat) : List (Node × Node) → Option (List (String × Json))
  | [] => some []
  | (k, x) :: rest => do
    let key ← k.text?
    let y ← value? depth x
    let ys ← entryValues? depth rest
    return (key, y) :: ys

end

/-- A boolean in a plain scalar, whatever its tag, or in a literal block with the tag of booleans. -/
def bool? : Node → Option Bool
  | .scalar tag text style =>
    if style = .plain ∨ (style = .literal ∧ tag = some "tag:yaml.org,2002:bool") then Yaml.bool? text
    else none
  | _ => none

/-- The fields of a record with the given names, none of them twice; an empty plain scalar has none. -/
def fields? (names : List String) : Node → Option (List (String × Node))
  | .mapping _ entries => do
    let fields ← entries.mapM fun (k, x) => k.text?.map (·, x)
    let known := (Entries.keys fields).filter names.contains
    if known.eraseDups.length = known.length then some fields else none
  | .scalar _ "" .plain => some []
  | _ => none

end Node

/-- The value of a text. -/
def value? (text : String) : Option Json := (Node.ofText? text).bind (Node.value? 128)

end DataSchema.Yaml

namespace DataSchema.Options

/-- A policy as a YAML text; a missing field has its default. -/
def ofYaml? (text : String) : Option Options := do
  let fields ← (Yaml.Node.ofText? text).bind (Yaml.Node.fields? fieldNames)
  let field (name : String) (missing : Bool) : Option Bool :=
    match Entries.get? fields name with
    | none => some missing
    | some node => node.bool?
  let d : Options := {}
  return {
    coerceTypes := ← field "coerceTypes" d.coerceTypes
    removeAdditional := ← field "removeAdditional" d.removeAdditional
    useDefaults := ← field "useDefaults" d.useDefaults
    strict := ← field "strict" d.strict
    allErrors := ← field "allErrors" d.allErrors }

/-- Why a file gives no policy. -/
inductive LoadError where
  /-- It cannot be read. -/
  | unreadable
  | invalid

/-- The policy of a file, by its content if it can be read. -/
def load (content : Option String) : Except LoadError Options :=
  match content with
  | none => .error .unreadable
  | some text =>
    match ofYaml? text with
    | some o => .ok o
    | none => .error .invalid

end DataSchema.Options
