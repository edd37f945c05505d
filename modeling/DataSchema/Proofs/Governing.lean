import DataSchema.Access.Accessor
import DataSchema.Pattern.Reader
import DataSchema.Proofs.Acceptance
import DataSchema.Proofs.Checking
import DataSchema.Proofs.Replacing
import DataSchema.Proofs.Values

/-!
The schema that an accessor carries governs what it reads.

Validation and accessors each choose the schemas for a part of a value by code of their own: validation
takes all that apply, an accessor the first one. What the accessor takes is one of those that validation
takes (`Schema.part_of_part?`), so in a value that passes the part passes too; along a path this is an
induction (`Schema.clears_partAt?`).
-/

namespace DataSchema

namespace Shared

/-! ### Places in a value and in what it stands for -/

theorem step?_toJson (x : Shared) (step : Step) : x.toJson.step? step = (x.step? step).map toJson := by
  cases step with
  | key name =>
    cases x with
    | object id members =>
      rw [toJson, membersToJson_eq]
      exact Entries.get?_mapValues toJson members name
    | _ => rfl
  | index i =>
    cases x with
    | array id items =>
      rw [toJson, itemsToJson_eq]
      exact List.getElem?_map
    | _ => rfl

theorem at?_toJson (x : Shared) (path : Path) : x.toJson.at? path = (x.at? path).map toJson := by
  induction path generalizing x with
  | nil => rfl
  | cons step rest ih =>
    rw [Json.at?, at?, step?_toJson]
    cases x.step? step with
    | none => rfl
    | some next => exact ih next

end Shared

namespace Schema

variable {s t : Schema} {value x : Json} {step : Step} {path : Path}

/-! ### One step -/

theorem additionalSchema?_eq_some : s.additionalSchema? = some t ↔ s.additional = .schema t := by
  rw [additionalSchema?]
  cases s.additional <;> simp

variable [Pattern.Engine]

/-- An accessor takes the declaration of a key, else the first pattern that accepts it, else the schema
of additional members. -/
theorem part?_key_cases {name : String} (h : s.part? (.key name) = some t) :
    Entries.get? s.properties name = some t ∨
      s.declares name = false ∧
        ((∃ pattern, (pattern, t) ∈ s.patternProperties ∧ Pattern.accepts pattern name = true) ∨
          (∀ e ∈ s.patternProperties, ¬ Pattern.accepts e.1 name = true) ∧
            s.additional = .schema t) := by
  rw [part?] at h
  rcases hdeclared : Entries.get? s.properties name with _ | property
  · simp only [hdeclared, Option.orElse_eq_orElse, Option.orElse_none] at h
    refine .inr ⟨not_declares_of_get? hdeclared, ?_⟩
    rcases hpattern : s.patternProperties.find? (Pattern.accepts ·.1 name) with _ | ⟨pattern, u⟩
    · rw [hpattern] at h
      exact .inr ⟨List.find?_eq_none.mp hpattern, additionalSchema?_eq_some.mp h⟩
    · rw [hpattern] at h
      cases h
      have haccepts := List.find?_some hpattern
      exact .inl ⟨pattern, List.mem_of_find?_eq_some hpattern, haccepts⟩
  · rw [hdeclared] at h
    exact .inl h

/-- The schema that governs a part for an accessor governs it for validation. -/
theorem part_of_part? (ht : s.part? step = some t) (hx : value.step? step = some x) :
    s.Part value t x := by
  cases step with
  | index i =>
    cases value with
    | array items => exact .item ht (List.mem_of_getElem? hx)
    | _ => cases hx
  | key name =>
    cases value with
    | object members =>
      have hmember : (name, x) ∈ members := Entries.mem_of_get? hx
      rcases part?_key_cases ht with hdeclared | ⟨hundeclared, hpattern | ⟨hnone, hadditional⟩⟩
      · exact .declared (Entries.mem_of_get? hdeclared) hx
      · obtain ⟨pattern, hpattern, haccepts⟩ := hpattern
        exact .patterned hmember hundeclared hpattern haccepts
      · have hextra : s.isExtra name = true := by
          have hmatches : s.matchesKey name = false := List.any_eq_false.mpr hnone
          rw [isExtra, hundeclared, hmatches]
          rfl
        exact .extra hmember hextra hadditional
    | _ => cases hx

theorem child_of_part? (h : s.part? step = some t) : Child t s := by
  cases step with
  | index i => exact .items h
  | key name =>
    rcases part?_key_cases h with hdeclared | ⟨_, ⟨_, hpattern, _⟩ | ⟨_, hadditional⟩⟩
    · exact .property (Entries.mem_of_get? hdeclared)
    · exact .pattern hpattern
    · exact .additional hadditional

theorem Clears.part {o : Options} (h : s.Clears o value) (hpart : s.Part value t x) : t.Clears o x := by
  rcases (succeeds_run_iff o s false value).mp h with ⟨rfl, _⟩ | ⟨_, hparts, _⟩
  · cases hpart
  · exact hparts t x hpart

/-! ### Along a path -/

/-- The schema that governs the part a path leads to. -/
def partAt? (s : Schema) : Path → Option Schema
  | [] => some s
  | step :: rest => (s.part? step).bind (·.partAt? rest)

theorem clears_partAt? {o : Options} (h : s.Clears o value) (ht : s.partAt? path = some t)
    (hx : value.at? path = some x) : t.Clears o x := by
  induction path generalizing s value with
  | nil =>
    cases ht
    cases hx
    exact h
  | cons step rest ih =>
    obtain ⟨u, hu, ht⟩ := Option.bind_eq_some_iff.mp ht
    obtain ⟨y, hy, hx⟩ := Option.bind_eq_some_iff.mp hx
    exact ih (h.part (part_of_part? hu hy)) ht hx

theorem check_partAt? {strict : Bool} (h : s.check strict = .ok ()) (ht : s.partAt? path = some t) :
    t.check strict = .ok () := by
  induction path generalizing s with
  | nil =>
    cases ht
    exact h
  | cons step rest ih =>
    obtain ⟨u, hu, ht⟩ := Option.bind_eq_some_iff.mp ht
    exact ih (((check_eq_ok_iff s).mp h).2 u (child_of_part? hu)) ht

end Schema

namespace Accessor

theorem path_along [Pattern.Engine] (a : Accessor) (path : Path) : (a.along path).path = a.path ++ path := by
  induction path generalizing a with
  | nil => exact (List.append_nil _).symm
  | cons step rest ih =>
    have hrest : (a.along (step :: rest)).path = (a.down step).path ++ rest := ih (a.down step)
    rw [hrest, down, List.append_assoc]
    rfl

theorem schema_along [Pattern.Engine] (a : Accessor) (path : Path) :
    (a.along path).schema = a.schema.bind (·.partAt? path) := by
  induction path generalizing a with
  | nil => exact (Option.bind_fun_some a.schema).symm
  | cons step rest ih =>
    have hrest : (a.along (step :: rest)).schema = (a.down step).schema.bind (·.partAt? rest) :=
      ih (a.down step)
    rw [hrest, down, Option.bind_assoc]
    rfl

/-- Where a value passes a schema, whatever schema an accessor carries along a path compiles, and the part
of the value that the accessor reads passes it, under the same policy. -/
theorem governs [Pattern.Engine] {s t : Schema} {o : Options} {v : Validator} {root x : Shared}
    (h : Validator.compile s o.plain = .ok v) (hroot : v.Passes root.toJson) (path : Path)
    (ht : ((forSchema s).along path).schema = some t) (hx : ((forSchema s).along path).get? root = some x) :
    ∃ w, Validator.compile t o.plain = .ok w ∧ w.Passes x.toJson := by
  rw [schema_along] at ht
  rw [get?, path_along] at hx
  have hclears : s.Clears o root.toJson := (Validator.passes_plain_iff h _).mp hroot
  have hcompiled := Validator.compile_of_check (Schema.check_partAt? (Validator.check_of_compile h) ht)
  refine ⟨_, hcompiled, (Validator.passes_plain_iff hcompiled _).mpr ?_⟩
  refine Schema.clears_partAt? hclears ht (x := x.toJson) ?_
  rw [Shared.at?_toJson]
  exact congrArg (Option.map Shared.toJson) hx

/-- Entries with a flag under every key that begins with an x, and a text or null under any other. -/
def journal : Schema where
  kind := some .object
  properties := [("log", Schema.arrayOf {
    kind := some .object
    patternProperties := [("^x", Schema.ofKind .boolean)]
    additional := .schema { kind := some .string, nullable := true } })]

def entries : Shared :=
  .object 0 [("log", .array 1 [.object 2 [("note", .null), ("xa", .bool true)]])]

/-- The way to a flag of the first entry. -/
def flagPath : Path := [.key "log", .index 0, .key "xa"]

theorem governs_journal :
    Validator.compile journal (Options.plain {}) = .ok ⟨journal, Options.plain {}, rfl⟩ ∧
      ((forSchema journal).along flagPath).schema = some (Schema.ofKind .boolean) ∧
      ((forSchema journal).along flagPath).get? entries = some (.bool true) ∧
      ∃ w, Validator.compile (Schema.ofKind .boolean) (Options.plain {}) = .ok w ∧ w.Passes (.bool true) := by
  have hcompiled : Validator.compile journal (Options.plain {}) =
    .ok ⟨journal, Options.plain {}, rfl⟩ := rfl
  have hread : ((forSchema journal).along flagPath).get? entries = some (.bool true) := rfl
  have hpasses : (Validator.mk journal (Options.plain {}) rfl).Passes entries.toJson :=
    Validator.passes_iff.mpr ⟨by decide, by decide⟩
  exact ⟨hcompiled, rfl, hread, governs hcompiled hpasses flagPath rfl hread⟩

end Accessor

end DataSchema
