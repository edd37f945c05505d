import DataSchema.Json.Basic

/-!
JSON pointers: a place in a value as a text.

A pointer is a list of reference tokens, each after a slash, where a tilde stands as `~0` and a slash as
`~1`. A token names a member of an object, or an element of an array by its index without leading zeros.
The empty pointer is the value itself.
-/

namespace DataSchema.Pointer

def escapeChar : Char → List Char
  | '~' => ['~', '0']
  | '/' => ['~', '1']
  | c => [c]

/-- One reference token: a slash, then the key with its own slashes and tildes escaped. -/
def token (key : String) : String := String.ofList ('/' :: key.toList.flatMap escapeChar)

/-- The pointer of a list of tokens; the root is the empty text. -/
def render (tokens : List String) : String := tokens.foldr (fun t rest => token t ++ rest) ""

/-- The key that an escaped token stands for. A tilde before any other character stands for itself. -/
def unescape : List Char → List Char
  | '~' :: '0' :: rest => '~' :: unescape rest
  | '~' :: '1' :: rest => '/' :: unescape rest
  | c :: rest => c :: unescape rest
  | [] => []

/-- The tokens of a text that is empty or starts with a slash. -/
def parse? (text : String) : Option (List String) :=
  match text.toList with
  | [] => some []
  | '/' :: rest => some ((rest.splitOn '/').map fun t => String.ofList (unescape t))
  | _ => none

/-- The index that a token names: decimal digits, of which the first is zero only if it is the last. -/
def index? (token : String) : Option Nat :=
  match token.toList with
  | ['0'] => some 0
  | '0' :: _ => none
  | digits => if digits ≠ [] ∧ digits.all Char.isDigit then token.toNat? else none

/-- The part of a value that a token names. -/
def step? (value : Json) (token : String) : Option Json :=
  match value with
  | .object members => Entries.get? members token
  | .array items => (index? token).bind (items[·]?)
  | _ => none

/-- The part of a value that a list of tokens leads to. -/
def resolve? (value : Json) : List String → Option Json
  | [] => some value
  | token :: rest => (step? value token).bind (resolve? · rest)

/-- The part of a value that the text of a pointer leads to. -/
def lookup? (value : Json) (pointer : String) : Option Json :=
  (parse? pointer).bind (resolve? value)

end DataSchema.Pointer
