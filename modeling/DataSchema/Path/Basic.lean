import DataSchema.Text.Printable

/-!
Paths into a value and their text.

A path is a list of steps, each a member key or an element index. A key that is an identifier is
written after a point, any other key between quotes in brackets, an index in brackets. The point of a
leading key is left out, so `a.b[0]["x y"]` is the path of four steps.
-/

namespace DataSchema

/-- One step of a path. -/
inductive Step where
  | key (name : String)
  | index (i : Nat)
  deriving DecidableEq

/-- Steps from a value down to a part of it. -/
abbrev Path := List Step

namespace Path

def isIdentifierStart (c : Char) : Bool := c.isAlpha || c == '_' || c == '$'

/-- A letter, underscore or dollar sign, then any of these or digits; ASCII only. -/
def isIdentifier (name : String) : Bool :=
  match name.toList with
  | [] => false
  | c :: rest => isIdentifierStart c && rest.all fun c => isIdentifierStart c || c.isDigit

def renderStep : Step → String
  | .key name => if isIdentifier name then "." ++ name else "[" ++ Text.quoteShown name ++ "]"
  | .index i => "[" ++ toString i ++ "]"

/-- The steps one after another; the root is the empty text. -/
def render (path : Path) : String :=
  let text := (path.map renderStep).foldl (· ++ ·) ""
  match text.toList with
  | '.' :: rest => String.ofList rest
  | _ => text

end Path

end DataSchema
