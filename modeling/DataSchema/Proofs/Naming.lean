import DataSchema.Proofs.Dereference
import DataSchema.Proofs.Loading

/-!
A document under its name and the same document without one.

Read under its name, a document has its local references followed under other keys than without it, and a
reference to its own name leads to the same keys as a local one. What the document is inlined to depends on
neither: a local reference leads to the same value (`LeadsTo.renamed`), and only values are built into others
(`Inlines.renamed`). So loading a name is dereferencing its document by hand and reading what comes out
(`loadSchema_eq_ok_iff_dereference`).
-/

namespace DataSchema.Registry

variable {r : Registry} {d d' t : Document} {text name : String} {value x y document : Json}

/-- A reference leads to the same value from a document under another name. -/
theorem LeadsTo.renamed (h : r.LeadsTo d text t value) (hsame : d'.value = d.value) :
    ∃ t', r.LeadsTo d' text t' value ∧ t'.value = t.value := by
  cases h with
  | here htext hlookup => exact ⟨d', .here htext (hsame ▸ hlookup), hsame⟩
  | named hname hget => exact ⟨_, .named hname hget, rfl⟩
  | within hname hne htext hget hlookup => exact ⟨_, .within hname hne htext hget hlookup, rfl⟩

/-- A value is inlined to the same in a document under another name. -/
theorem Inlines.renamed (h : r.Inlines d x y) : ∀ {d' : Document}, d'.value = d.value →
    r.Inlines d' x y := by
  induction h with
  | scalar hx => exact fun _ => .scalar hx
  | array f _ ih => exact fun hsame => .array f fun x hx => ih x hx hsame
  | object f hnone _ ih => exact fun hsame => .object f hnone fun e he => ih e he hsame
  | reference htext hleads _ hout ih =>
    intro d' hsame
    obtain ⟨t', hleads', htarget⟩ := hleads.renamed hsame
    exact .reference htext hleads' (ih htarget) hout
  | overlaid f htext hleads _ _ ih ihf =>
    intro d' hsame
    obtain ⟨t', hleads', htarget⟩ := hleads.renamed hsame
    exact .overlaid f htext hleads' (ih htarget) fun e he => ihf e he hsame

/-- Where the name is that of the document, its references are followed to the same end with and without
it. -/
theorem inlineDocument_eq_ok_iff_dereference (hnames : r.PlainNames) (hget : r.get? name = some document)
    (out : Json) :
    r.inlineDocument ⟨some name, document⟩ = .ok out ↔ r.dereference document = .ok out := by
  have hregistered : r.Registered ⟨some name, document⟩ := by
    rintro _ ⟨⟩
    exact hget
  have hanonymous : r.Registered ⟨none, document⟩ := nofun
  calc r.inlineDocument ⟨some name, document⟩ = .ok out
    _ ↔ r.Inlines ⟨some name, document⟩ document out :=
      inlineDocument_eq_ok_iff hnames hregistered out
    _ ↔ r.Inlines ⟨none, document⟩ document out := ⟨fun h => h.renamed rfl, fun h => h.renamed rfl⟩
    _ ↔ r.dereference document = .ok out := (inlineDocument_eq_ok_iff hnames hanonymous out).symm

/-- Loading is inlining the document under its name and reading the schema from it. -/
theorem loadSchema_eq (hget : r.get? name = some document) :
    r.loadSchema name = r.inlineDocument ⟨some name, document⟩ >>= readDocument := by
  rw [loadSchema, hget]
  refine congrArg (r.inlineDocument ⟨some name, document⟩ >>= ·) (funext fun value => ?_)
  rw [readDocument]
  cases Schema.ofJson? value <;> rfl

/-- A registered name is loaded exactly if its document can be dereferenced and read, and as the same
schema. -/
theorem loadSchema_eq_ok_iff_dereference (hnames : r.PlainNames) (hget : r.get? name = some document)
    (s : Schema) :
    r.loadSchema name = .ok s ↔ (r.dereference document >>= readDocument) = .ok s := by
  rw [loadSchema_eq hget, bind_eq_ok_iff, bind_eq_ok_iff]
  simp only [inlineDocument_eq_ok_iff_dereference hnames hget]

/-- An account with two identifiers; the second one is found by way of the account's own name. -/
def account : Json := .object [
  ("properties", .object [("id", .object [("$ref", .string "#/$defs/id")]),
    ("parent", .object [("$ref", .string "account#/$defs/id"), ("title", .string "Parent")])]),
  ("$defs", .object [("id", .object [("type", .string "integer")])])]

def accounts : Registry where
  documents := [("account", account)]

/-- The account as a schema. -/
def accountSchema : Schema where
  properties := [("id", { kind := some .integer }),
    ("parent", { kind := some .integer, metadata := { title := some "Parent" } })]

theorem loadSchema_account : accounts.loadSchema "account" = .ok accountSchema ∧
    (accounts.dereference account >>= readDocument) = .ok accountSchema := by
  have hnames : accounts.PlainNames := by decide
  have hloaded : accounts.loadSchema "account" = .ok accountSchema := rfl
  exact ⟨hloaded, (loadSchema_eq_ok_iff_dereference hnames rfl accountSchema).mp hloaded⟩

end DataSchema.Registry
