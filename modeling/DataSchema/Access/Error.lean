import DataSchema.Path.Reader
import DataSchema.Schema.Error

/-!
Why a value cannot be reached or changed.
-/

namespace DataSchema

inductive AccessError where
  /-- A layer of a transformed accessor maps only one way. -/
  | noInverse (path : Path)
  | narrowWithoutTransform (path : Path)
  | noSuchBranch (path : Path) (index : Nat)
  /-- A step meets a value of the given kind, which it cannot enter. -/
  | notAContainer (path : Path) (found : String)
  /-- An index lies too far beyond the end of its array. -/
  | indexTooFar (path : Path) (index length : Nat)
  | invalidPath (text : String) (fault : Path.Fault)
  | schema (error : ReshapeError)
  /-- The value is none of the wanted type. -/
  | unreadable

namespace AccessError

def message : AccessError → String
  | .noInverse path => "cannot set '" ++ path.render ++ "': transform has no inverse mapping"
  | .narrowWithoutTransform path => "narrowing '" ++ path.render ++ "' requires a schema transform"
  | .noSuchBranch path index => "'" ++ path.render ++ "' has no union branch " ++ toString index
  | .notAContainer path found => "cannot step into " ++ found ++ " at '" ++ path.render ++ "'"
  | .indexTooFar path index length =>
    "index " ++ toString index ++ " at '" ++ path.render ++
      "' is too far past the end of an array of length " ++ toString length
  | .invalidPath text fault => "invalid path '" ++ text ++ "': " ++ fault.message
  | .schema error => error.message
  | .unreadable => "value does not match the requested type"

/-- The error as seen from the container that a step leads out of; only what names a place on the way
changes. -/
def under (step : Step) : AccessError → AccessError
  | .notAContainer path found => .notAContainer (step :: path) found
  | .indexTooFar path index length => .indexTooFar (step :: path) index length
  | e => e

end AccessError

end DataSchema
