import DataSchema.Validation.Handle

/-!
Sessions: contexts and schema handles under names.

A context holds a policy that handles follow until their own is fixed. Two names can stand for the same
context. The first context is the common one, which handles follow unless they are given another.
-/

namespace DataSchema

variable [Pattern.Engine]

structure Session where
  /-- The policy of each context, the common one first. -/
  contexts : List Options := [{}]
  contextNames : List (String × ContextId) := [("global", 0)]
  handles : List (String × Handle) := []

namespace Session

/-! ### Contexts -/

def context? (s : Session) (name : String) : Option ContextId := Entries.get? s.contextNames name

/-- The policy that a context holds now. -/
def policy (s : Session) (c : ContextId) : Options := s.contexts[c]?.getD {}

/-- A new context under a name. -/
def addContext (s : Session) (name : String) (policy : Options) : Session :=
  { s with
    contexts := s.contexts ++ [policy]
    contextNames := Entries.put s.contextNames name s.contexts.length }

/-- Another name for a context. -/
def shareContext (s : Session) (c : ContextId) (name : String) : Session :=
  { s with contextNames := Entries.put s.contextNames name c }

def setContext (s : Session) (c : ContextId) (policy : Options) : Session :=
  { s with contexts := s.contexts.set c policy }

def updateContext (s : Session) (c : ContextId) (changes : Overrides) : Session :=
  s.setContext c ((s.policy c).withOverrides changes)

def resetContext (s : Session) (c : ContextId) : Session := s.setContext c {}

/-! ### Handles -/

def handle? (s : Session) (name : String) : Option Handle := Entries.get? s.handles name

def putHandle (s : Session) (name : String) (h : Handle) : Session :=
  { s with handles := Entries.put s.handles name h }

def dropHandle (s : Session) (name : String) : Session :=
  { s with handles := Entries.erase s.handles name }

/-- A new handle that follows a context. -/
def addSchema (s : Session) (name : String) (schema : Schema) (c : ContextId) : Session :=
  s.putHandle name { schema := schema, context := c }

/-- The policy that the handle's context holds now. -/
def current (s : Session) (h : Handle) : Options := s.policy h.context

/-- Moves a handle to another name, with a policy of its own. -/
def configure (s : Session) (name : String) (h : Handle) (changes : Overrides) (target : String) :
    Session :=
  (s.dropHandle name).putHandle target (h.configure (s.current h) changes)

/-- Validates by the handle under a name, and keeps what it compiled, also when the run breaks off. -/
def validate (s : Session) (name : String) (h : Handle) (value : Json) :
    Session × Option (Handle.Verdict Json) :=
  let (h, verdict) := h.validate (s.current h) value
  (s.putHandle name h, verdict)

def validateList (s : Session) (name : String) (h : Handle) (values : List Json) :
    Session × Option (Handle.Verdict (List Json)) :=
  let (h, verdict) := h.validateList (s.current h) values
  (s.putHandle name h, verdict)

def parse (α : Type) [Typed α] (s : Session) (name : String) (h : Handle) (value : Json) :
    Session × Option (Except Rejection α) :=
  let (h, result) := h.parse α (s.current h) value
  (s.putHandle name h, result)

end Session

end DataSchema
