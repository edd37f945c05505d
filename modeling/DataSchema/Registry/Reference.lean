import DataSchema.Json.Pointer
import DataSchema.Registry.Basic
import DataSchema.Schema.Document

/-!
Following references: every object with a textual `$ref` is replaced by what the reference leads to.

A reference is `#` and a pointer into the document that holds it, or the name of a registered document,
or a name, `#` and a pointer. The target is inlined in turn, with its own document as the current one,
and if it is an object, the other members of the referring object are put over its members. Blocks of
definitions are dropped everywhere. The references that are being followed are kept on a trail; one that
is on it already leads back to itself.
-/

namespace DataSchema

/-- A document and the name it is known by, if it has one. -/
structure Document where
  name : Option String
  value : Json

/-- A reference in parts: a name, where one is given, and a pointer. -/
structure Reference where
  name : Option String
  pointer : String
  deriving DecidableEq

namespace Reference

/-- The parts before and after the first hash; without a hash the whole text is a name. Nothing before
the hash means the current document, by the name that it has. -/
def ofText (text : String) (current : Option String) : Reference :=
  let cs := text.toList
  let before := String.ofList (cs.takeWhile (· != '#'))
  match cs.dropWhile (· != '#') with
  | [] => ⟨some text, ""⟩
  | _ :: pointer => ⟨if before = "" then current else some before, String.ofList pointer⟩

/-- The text under which the reference is on the trail. -/
def trailKey (r : Reference) : String := r.name.getD "" ++ "#" ++ r.pointer

end Reference

namespace Registry

/-- The members that are dropped wherever they stand. -/
def isDefinitions (key : String) : Bool := key == "definitions" || key == "$defs"

/-- The document that a reference of the current one leads into. A pointer within a document of the same
name stays in the current one. -/
def targetDocument? (r : Registry) (current : Document) (reference : Reference) : Option Document :=
  match reference.name with
  | some name =>
    if some name = current.name ∧ reference.pointer ≠ "" then some current
    else (r.get? name).map fun value => ⟨some name, value⟩
  | none => some current

/-- A reference in a text, if the members hold one. -/
def referenceText? (members : List (String × Json)) : Option String :=
  match Entries.get? members "$ref" with
  | some (.string text) => some text
  | _ => none

mutual

/-- Rebuilds a value, where `follow` gives what a reference is replaced by. -/
def rebuild (follow : String → Except RegistryError Json) : Json → Except RegistryError Json
  | .object members =>
    match referenceText? members with
    | some text => do
      match ← follow text with
      | .object out => .object <$> overlay follow out members
      | other => return other
    | none => .object <$> rebuildMembers follow members
  | .array items => .array <$> rebuildItems follow items
  | value => .ok value

def rebuildItems (follow : String → Except RegistryError Json) :
    List Json → Except RegistryError (List Json)
  | [] => .ok []
  | x :: rest => do
    let y ← rebuild follow x
    let ys ← rebuildItems follow rest
    return y :: ys

/-- The members without definitions. -/
def rebuildMembers (follow : String → Except RegistryError Json) :
    List (String × Json) → Except RegistryError (List (String × Json))
  | [] => .ok []
  | (k, x) :: rest =>
    if isDefinitions k then rebuildMembers follow rest
    else do
      let y ← rebuild follow x
      let ys ← rebuildMembers follow rest
      return (k, y) :: ys

/-- Puts the members beside a reference over those of its target. -/
def overlay (follow : String → Except RegistryError Json) (out : List (String × Json)) :
    List (String × Json) → Except RegistryError (List (String × Json))
  | [] => .ok out
  | (k, x) :: rest =>
    if k = "$ref" ∨ isDefinitions k then overlay follow out rest
    else do
      let y ← rebuild follow x
      overlay follow (Entries.put out k y) rest

end

/-- What a reference of the current document is replaced by. The trail grows with every step and holds
no key twice, so the number of keys that can be on it bounds the steps. -/
def follow (r : Registry) : Nat → List String → Document → String → Except RegistryError Json
  | 0, _, _, text => .error (.cycle text)
  | steps + 1, trail, current, text => do
    let reference := Reference.ofText text current.name
    let some target := r.targetDocument? current reference | .error (.unresolved text)
    let some value := Pointer.lookup? target.value reference.pointer | .error (.unresolved text)
    if trail.contains reference.trailKey then .error (.cycle text)
    else rebuild (r.follow steps (reference.trailKey :: trail) ⟨reference.name, target.value⟩) value

/-! ### How many references there are -/

mutual

/-- The texts of all references in a value. -/
def references : Json → List String
  | .object members => (referenceText? members).toList ++ memberReferences members
  | .array items => itemReferences items
  | _ => []

def itemReferences : List Json → List String
  | [] => []
  | x :: rest => references x ++ itemReferences rest

def memberReferences : List (String × Json) → List String
  | [] => []
  | (_, x) :: rest => references x ++ memberReferences rest

end

/-- More keys than can be on a trail: one for each reference under each name, and one. -/
def stepBound (r : Registry) (document : Json) : Nat :=
  let texts := references document ++ memberReferences r.documents
  texts.length * (r.size + 1) + 1

/-- The document with every reference followed. -/
def inlineDocument (r : Registry) (document : Document) : Except RegistryError Json :=
  rebuild (r.follow (r.stepBound document.value) [] document) document.value

def dereference (r : Registry) (document : Json) : Except RegistryError Json :=
  r.inlineDocument ⟨none, document⟩

/-- The schema of a registered document with its references followed. -/
def loadSchema (r : Registry) (name : String) : Except RegistryError Schema := do
  let some document := r.get? name | .error (.unknownSchema name)
  let value ← r.inlineDocument ⟨some name, document⟩
  match Schema.ofJson? value with
  | some s => return s
  | none => .error (.schema .invalidDocument)

end Registry

end DataSchema
