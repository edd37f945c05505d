/-!
The engine that runs patterns.

What is a pattern, and which texts contain a match of it, is for the library to say that runs patterns.
Definitions and theorems take it as a parameter, of which nothing is assumed, so they hold of every
engine. `Pattern.reader` is one that runs.
-/

namespace DataSchema.Pattern

/-- An engine of patterns. -/
class Engine where
  /-- Patterns ready to be run. -/
  Compiled : Type
  /-- The pattern that a text writes, unless the engine refuses the text. -/
  compile? : String → Option Compiled
  /-- Does a text contain a match? -/
  isMatch : Compiled → String → Bool

section Running

variable [Engine]

/-- Is the text a pattern? -/
def isValid (text : String) : Bool := (Engine.compile? text).isSome

/-- Does a value contain a match of the pattern that a text writes? A text that is no pattern matches
nothing. -/
def accepts (pattern value : String) : Bool := (Engine.compile? pattern).any (Engine.isMatch · value)

end Running

/-- The characters with a meaning of their own. -/
def isMeta (c : Char) : Bool := "\\.+*?()|[]\x7b\x7d^$#&-~".toList.contains c

/-- Quotes every character that has a meaning of its own. -/
def escapeLiteral (text : String) : String :=
  String.ofList (text.toList.flatMap fun c => if isMeta c then ['\\', c] else [c])

end DataSchema.Pattern
