import DataSchema.Registry.Basic
import DataSchema.Registry.Bundle
import DataSchema.Yaml.Value

/-!
Loading registries from files.

A directory gives a document for each of its files with a known extension, under the name of the file
without it. A bundle is one file. Of a chain of sources the first that can be loaded counts.
-/

namespace DataSchema

/-- Texts under paths of which the parts are separated by slashes. Every beginning of a path is a
directory. -/
structure Files where
  texts : List (String × String)

namespace Files

/-- The names on a path; a point stays where it is, two points go back by one. -/
def components (path : String) : List String :=
  (path.splitOn "/").foldl
    (fun names name =>
      if name = "" ∨ name = "." then names
      else if name = ".." then names.dropLast
      else names ++ [name]) []

/-- The rest of a path after its beginning. -/
def below? : List String → List String → Option (List String)
  | [], path => some path
  | x :: start, y :: path => if x = y then below? start path else none
  | _ :: _, [] => none

/-- What is found under a path below the root. -/
inductive Found where
  | missing
  | text (content : String)
  /-- The names in a directory, each with its text if it is a file. -/
  | directory (entries : List (String × Option String))

/-- The entry of a directory that a rest of a path goes through. -/
def entryOf (rest : List String) (content : String) : Option (String × Option String) :=
  match rest with
  | [] => none
  | [name] => some (name, some content)
  | name :: _ => some (name, none)

def find (files : Files) (path : String) : Found :=
  let names := components path
  let below := files.texts.filterMap fun e => (below? names (components e.1)).map fun rest => (rest, e.2)
  if path.startsWith "/" then .missing
  else
    match below.find? fun e => e.1.isEmpty with
    | some (_, content) => if path.endsWith "/" then .missing else .text content
    | none =>
      if below.isEmpty && !names.isEmpty then .missing
      else .directory (Entries.ofList (below.filterMap fun (rest, content) => entryOf rest content))

/-- The parts of a file name before and after its last point; a point at the start is none. -/
def splitExtension (name : String) : String × Option String :=
  let cs := name.toList.reverse
  let extension := cs.takeWhile (· != '.')
  match cs.drop (extension.length + 1) with
  | [] => (name, none)
  | stem => (String.ofList stem.reverse, some (String.ofList extension.reverse))

end Files

namespace Registry

/-- The document of a file by its extension; nothing for a file that is none. A directory in its place
cannot be read. -/
def document? (extension : Option String) (content : Option String) :
    Except RegistryError (Option Json) :=
  match extension with
  | some "json" =>
    match content.bind Json.ofText? with
    | some value => .ok (some value)
    | none => .error .invalidJson
  | some "yaml" | some "yml" =>
    match content.bind Yaml.value? with
    | some value => .ok (some value)
    | none => .error .invalidYaml
  | _ => .ok none

def readDocuments : List (String × Option String) → Except RegistryError (List (String × Json))
  | [] => .ok []
  | (name, content) :: rest => do
    let (stem, extension) := Files.splitExtension name
    let document ← document? extension content
    let others ← readDocuments rest
    return (document.toList.map (stem, ·)) ++ others

def ofDirectory (files : Files) (path : String) : Except RegistryError Registry :=
  match files.find path with
  | .directory entries =>
    (readDocuments entries).map fun documents => ⟨Entries.ofList documents, .directory path⟩
  | _ => .error .unreadableFile

def ofBundle (files : Files) (path : String) : Except RegistryError Registry :=
  match files.find path with
  | .missing => .error .unreadableFile
  | .directory _ => .error .invalidJson
  | .text content =>
    match Bundle.ofText? content with
    | some b => .ok ⟨b.schemas, .bundle path⟩
    | none => .error .invalidJson

/-- The registry of one source; a registry in memory has no documents yet. -/
def ofSingle (files : Files) : Source → Except RegistryError Registry
  | .directory path => ofDirectory files path
  | .bundle path => ofBundle files path
  | _ => .error .noSource

/-- The registry of the first source that can be loaded. -/
def ofChain (files : Files) (sources : List Source) : Except RegistryError Registry :=
  match sources.findSome? fun source => (ofSingle files source).toOption with
  | some r => .ok { r with source := .chain sources }
  | none => .error .noSource

end Registry

end DataSchema
