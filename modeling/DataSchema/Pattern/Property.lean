import DataSchema.Pattern.CharSet
import DataSchema.Text.Property
import DataSchema.Text.Script

/-!
Sets of characters that a pattern names by a property of the Unicode standard: a property, a general
category or a script. Case, spaces, underscores, dashes and a leading `is` do not count in names.
-/

namespace DataSchema.CharSet

/-- A name without what does not count in it. -/
def plainName (name : List Char) : String :=
  let hasIs := (name.take 2).map Char.toLower == ['i', 's']
  let kept := (if hasIs then name.drop 2 else name).filter fun c =>
    c.toNat < 128 && c != ' ' && c != '_' && c != '-'
  let plain := String.ofList (kept.map Char.toLower)
  if hasIs && plain == "c" then "isc" else plain

/-- The set of a general category or of a group of them. -/
def category? (name : String) : Option CharSet :=
  match name with
  | "any" => some .any
  | "assigned" => some (.ranges Text.assigned)
  | "ascii" => some (.ranges [(0, 127)])
  | name =>
    let short := (Text.categoryNames.lookup name).getD name
    if short = "cn" then some (.compl (.ranges Text.assigned))
    else if short = "c" then
      some (.union (.ranges (Text.category "c")) (.compl (.ranges Text.assigned)))
    else if short = "lc" then
      some (.ranges (Text.category "lu" ++ Text.category "ll" ++ Text.category "lt"))
    else if short.isEmpty ∨ (Text.category short).isEmpty then none
    else some (.ranges (Text.category short))

def script? (name : String) : Option CharSet := (Text.script? name).map .ranges

/-- The set of a name that says nothing about what it names. -/
def ofName? (name : String) : Option CharSet :=
  ((Text.property? name).map .ranges <|> category? name) <|> script? name

/-- The set of a value of a property. -/
def ofValue? (property value : String) : Option CharSet :=
  if property = "gc" ∨ property = "generalcategory" then category? value
  else if property = "sc" ∨ property = "script" then script? value
  else none

/-- The set that a text asks for: a name, or a property with a value after `=` or `:`, where `!=` asks for
the complement. -/
def ofQuery? (query : List Char) : Option CharSet :=
  match query.span (· != '!') with
  | (property, '!' :: '=' :: value) =>
    (ofValue? (plainName property) (plainName value)).map .compl
  | _ =>
    let separator := if query.contains ':' then ':' else '='
    match query.span (· != separator) with
    | (property, _ :: value) => ofValue? (plainName property) (plainName value)
    | (name, []) => ofName? (plainName name)

end DataSchema.CharSet
