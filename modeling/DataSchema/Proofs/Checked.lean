import DataSchema.Pattern.Reader
import DataSchema.Proofs.Rewritten

/-!
Constants, listed values and distinct elements, in what is handed back.

They are looked at before anything inside the value is rewritten. So they hold of what is handed back, except
of an array or an object in which the run changed something after they were looked at, and of a member under
several patterns, each of which works on what the one before it left (`facetsHold_or_rewritten`). Then
elements that were distinct can become equal, and a constant can be left behind
(`rewriting_not_keepsFacets`).
-/

namespace DataSchema

namespace Schema

/-- What the facets for the value as a whole ask of it. -/
structure FacetsHold (s : Schema) (value : Json) : Prop where
  const : ∀ c ∈ s.const, Json.equivalent c value = true
  enum : ∀ cs ∈ s.enum, ∃ c ∈ cs, Json.equivalent c value = true
  unique : s.array.uniqueItems = true → ∀ items, value = .array items →
    items.Pairwise fun x y => Json.equivalent x y = false

variable [Pattern.Engine]

/-- `s.Governs value path u y`: the path leads to `y` in the value, and `u`, which is nested in `s` or is `s`
itself, governs it there. -/
inductive Governs : Schema → Json → Path → Schema → Json → Prop where
  | here (s : Schema) (value : Json) : Governs s value [] s value
  | item {s t u : Schema} {items : List Json} {i : Nat} {x y : Json} {path : Path} :
    s.items = some t → items[i]? = some x → Governs t x path u y →
      Governs s (.array items) (.index i :: path) u y
  | member {s t u : Schema} {members : List (String × Json)} {key : String} {x y : Json} {path : Path} :
    (key, x) ∈ members → t ∈ s.governing key → Governs t x path u y →
      Governs s (.object members) (.key key :: path) u y

/-- On the way along the path a member is governed by several schemas. -/
def Contested (s : Schema) : Path → Prop
  | [] => False
  | .index _ :: rest => ∃ t, s.items = some t ∧ t.Contested rest
  | .key name :: rest => 1 < (s.governing name).length ∨ ∃ t ∈ s.governing name, t.Contested rest

/-- What a run of the schema has at a place before it rewrites anything there: what stands there in the value,
or in the default of a schema in the tree. -/
def StandsAt (s : Schema) (value : Json) (path : Path) (x : Json) : Prop :=
  value.at? path = some x ∨
    ∃ t d rest, Within t s ∧ t.default = some d ∧ rest <:+ path ∧ d.at? rest = some x

variable {o : Options} {listed : Bool} {s : Schema}

theorem facetsHold_of_passes {value : Json} (hown : s.valueViolations value = [])
    (h : (s.evaluateContent o listed value).passes = true) : s.FacetsHold value := by
  obtain ⟨hconst, henum⟩ := (s.valueViolations_eq_nil value).mp hown
  refine ⟨hconst, henum, ?_⟩
  rintro hunique items rfl
  exact (evaluateContent_array h).1.uniqueItems hunique

omit [Pattern.Engine] in
theorem StandsAt.of_step {t : Schema} {value x y : Json} {step : Step} {path : Path} (ht : Child t s)
    (hstep : value.step? step = some y ∨ t.default = some y) (h : t.StandsAt y path x) :
    s.StandsAt value (step :: path) x := by
  have hbelow : path <:+ step :: path := List.suffix_cons step path
  rcases h with hx | ⟨u, d, rest, hu, hd, hrest, hx⟩
  · rcases hstep with hy | hy
    · exact .inl (Json.at?_cons_eq_some.mpr ⟨y, hy, hx⟩)
    · exact .inr ⟨t, y, path, .step ht (.refl t), hy, hbelow, hx⟩
  · exact .inr ⟨u, d, rest, .step ht hu, hd, hrest.trans hbelow, hx⟩

/-- Where no member is contested, the first step to what a schema governs is under a sole schema. -/
theorem Governs.cases_sole {u : Schema} {value y : Json} {path : Path} (h : s.Governs value path u y)
    (halone : ¬ s.Contested path) : (u = s ∧ y = value ∧ path = []) ∨
      ∃ t x step rest, path = step :: rest ∧ Child t s ∧ s.Sole value step t x ∧
        Governs t x rest u y ∧ ¬ t.Contested rest := by
  cases h with
  | here => exact .inl ⟨rfl, rfl, rfl⟩
  | item ht hx hinside =>
    exact .inr ⟨_, _, _, _, rfl, .items ht, .item ht hx, hinside, fun hc => halone ⟨_, ht, hc⟩⟩
  | member hx ht hinside =>
    rw [Contested, not_or, Nat.not_lt] at halone
    obtain ⟨t, hsole⟩ := List.length_eq_one_iff.mp
      (Nat.le_antisymm halone.1 (List.length_pos_of_mem ht))
    obtain rfl := List.mem_singleton.mp (hsole ▸ ht)
    exact .inr ⟨_, _, _, _, rfl, child_of_mem_governing ht, .member hx hsole, hinside,
      fun hc => halone.2 ⟨_, ht, hc⟩⟩

/-- Wherever a schema governs what a passing run leaves, and no member is contested on the way, that is a null
let through, or it is what the run over its content made of a value of which the facets hold: of what stood
there before, once it was let in. -/
theorem exists_checked (o : Options) (s : Schema) : ∀ (listed : Bool) (value : Json) (path : Path)
    (u : Schema) (y : Json), s.WellKeyed → (∀ t, Within t s → t.hasCombination = false) →
      value.WellKeyed → (s.evaluate o listed value).passes = true → ¬ s.Contested path →
      s.Governs (s.evaluate o listed value).value path u y →
        (y = .null ∧ u.nullable = true) ∨
          ∃ listed before checked, s.StandsAt value path before ∧ u.admit? o before = some checked ∧
            u.FacetsHold checked ∧ (u.evaluateContent o listed checked).value = y := by
  induction s using Schema.induction with
  | step s ih =>
    intro listed value path u y hkeyed huncombined hvalue hpasses halone hgoverns
    have hcases := hgoverns.cases_sole halone
    rcases evaluate_of_uncombined (huncombined s (.refl s)) hpasses with
      ⟨-, hnullable, hleft⟩ | ⟨admitted, hadmit, hown, hcontent, hleft⟩
    · rw [hleft] at hcases
      rcases hcases with ⟨rfl, rfl, -⟩ | ⟨t, x, step, rest, -, -, hsole, -⟩
      · exact .inl ⟨rfl, hnullable⟩
      · cases hsole
    · rw [hleft] at hcases
      rcases hcases with ⟨rfl, rfl, rfl⟩ | ⟨t, x, step, rest, rfl, ht, hsole, hinside, halone⟩
      · exact .inr ⟨listed, value, admitted, .inl rfl, hadmit, facetsHold_of_passes hown hcontent, rfl⟩
      · obtain ⟨z, hz, hstood, hrun, rfl⟩ := exists_run_of_sole hkeyed (wellKeyed_admitted hvalue hadmit)
          hcontent hsole
        refine (ih t ht false z rest u y (hkeyed.child ht) (fun v hv => huncombined v (.step ht hv)) hz
          hrun halone hinside).imp_right ?_
        rintro ⟨listed, before, checked, hbefore, hrest⟩
        refine ⟨listed, before, checked, hbefore.of_step ht (hstood.imp_left fun hstep => ?_), hrest⟩
        -- a value with parts was let in as it is
        rcases (admit?_eq_some hadmit).2 with rfl | ⟨-, -, hscalar⟩
        · exact hstep
        · rw [Json.step?_of_isScalar hscalar step] at hstep
          cases hstep

end Schema

namespace Validator

/-- The facets hold of whatever a schema governs in what a passing validation hands back, unless it lies in a
member that several schemas govern, or it is an array or an object in which the run changed something: then
they held of what stood there before. -/
theorem facetsHold_or_rewritten [Pattern.Engine] {s u : Schema} {o : Options} {v : Validator}
    {value y : Json} {path : Path} (h : compile s o = .ok v) (hkeyed : s.WellKeyed)
    (huncombined : ∀ t, Schema.Within t s → t.hasCombination = false) (hvalue : value.WellKeyed)
    (hpasses : (v.validate value).issues = []) (hgoverns : s.Governs (v.validate value).value path u y) :
    (y = .null ∧ u.nullable = true) ∨ u.FacetsHold y ∨ s.Contested path ∨
      (y.isScalar = false ∧ ∃ listed before, before ≠ y ∧ s.StandsAt value path before ∧
        u.FacetsHold before ∧ (u.evaluateContent o listed before).value = y) := by
  obtain ⟨rfl, rfl⟩ := compile_eq_ok h
  by_cases hcontested : v.schema.Contested path
  · exact .inr (.inr (.inl hcontested))
  have hrun := (Report.issues_ofOutcome_eq_nil _ _).mp hpasses
  rcases v.schema.exists_checked v.options false value path u y hkeyed huncombined hvalue hrun hcontested
    hgoverns with hnull | ⟨listed, before, checked, hbefore, hadmit, hfacets, hleft⟩
  · exact .inl hnull
  · obtain ⟨hform, hscalar⟩ := Schema.evaluateContent_form v.options listed u checked
    rw [hleft] at hform hscalar
    by_cases hsame : checked = y
    · exact .inr (.inl (hsame ▸ hfacets))
    · have hcontainer : checked.isScalar = false :=
        Bool.eq_false_iff.mpr fun hs => hsame (hscalar hs).symm
      -- what is no scalar was not converted
      obtain rfl : checked = before := by
        rcases (Schema.admit?_eq_some hadmit).2 with heq | ⟨-, -, hs⟩
        · exact heq
        · exact absurd (hs.symm.trans hcontainer) (by decide)
      exact .inr (.inr (.inr ⟨hform.isScalar_eq.symm.trans hcontainer, listed, checked, hsame, hbefore,
        hfacets, hleft⟩))

/-- Different numbers. -/
def numbersApart : Schema :=
  { Schema.arrayOf (Schema.ofKind .number) with array := { uniqueItems := true } }

theorem one_inRange : -(Whole.signedLimit : Int) ≤ 1 ∧ (1 : Int) < UInt64.size := by decide

def one : Json := .number (.whole ⟨1, one_inRange⟩)

/-- The text `1` and the number are different, until the text is converted. -/
theorem numbersApart_rewritten :
    ∃ v, compile numbersApart { coerceTypes := true } = .ok v ∧
      (v.validate (.array [.string "1", one])).issues = [] ∧
      (v.validate (.array [.string "1", one])).value = .array [one, one] ∧
      ∃ listed before, numbersApart.StandsAt (.array [.string "1", one]) [] before ∧
        numbersApart.FacetsHold before ∧
        (numbersApart.evaluateContent { coerceTypes := true } listed before).value =
          .array [one, one] := by
  have hcompiled : compile numbersApart { coerceTypes := true } =
      .ok ⟨numbersApart, { coerceTypes := true }, rfl⟩ := rfl
  have hissues : ((Validator.mk numbersApart { coerceTypes := true } rfl).validate
      (.array [.string "1", one])).issues = [] := by decide +kernel
  refine ⟨_, hcompiled, hissues, rfl, ?_⟩
  rcases facetsHold_or_rewritten hcompiled (Schema.of_allWithin 2 (by decide))
    (Schema.of_allWithin 2 (by decide)) (by decide) hissues (.here _ _) with
    ⟨hnull, -⟩ | hfacets | hcontested | ⟨-, listed, before, -, hbefore, hheld, hleft⟩
  · cases hnull
  · exact absurd (hfacets.unique rfl [one, one] rfl) (by decide +kernel)
  · exact hcontested.elim
  · exact ⟨listed, before, hbefore, hheld, hleft⟩

/-- In what a validation that passes hands back, the facets hold wherever a schema governs. -/
def KeepsFacets [Pattern.Engine] (s : Schema) (o : Options) (value : Json) : Prop :=
  ∀ v, compile s o = .ok v → (v.validate value).issues = [] → ∀ path u y,
    s.Governs (v.validate value).value path u y → (y = .null ∧ u.nullable = true) ∨ u.FacetsHold y

/-- An empty object, though a member is filled in. -/
def emptyButFilled : Schema where
  const := some (.object [])
  properties := [("n", { default := some one })]
  required := some ["n"]

/-- Different objects, though none has a member left. -/
def emptyApart : Schema :=
  { Schema.arrayOf Schema.emptyObject with array := { uniqueItems := true } }

/-- A text, then a number. -/
def textThenNumber : Schema where
  patternProperties := [("^a", { const := some (.string "1") }), ("a$", Schema.ofKind .number)]

/-- Conversion and removal make distinct elements equal, a default makes an object another one than the
constant that it was, and under two patterns the second converts what the first compared. -/
theorem rewriting_not_keepsFacets :
    ¬ KeepsFacets numbersApart { coerceTypes := true } (.array [.string "1", one]) ∧
    ¬ KeepsFacets emptyButFilled { useDefaults := true } (.object []) ∧
    ¬ KeepsFacets emptyApart { removeAdditional := true }
      (.array [.object [("a", one)], .object [("b", one)]]) ∧
    ¬ KeepsFacets textThenNumber { coerceTypes := true } (.object [("a", .string "1")]) := by
  refine ⟨fun h => ?_, fun h => ?_, fun h => ?_, fun h => ?_⟩
  · obtain ⟨hnull, -⟩ | hfacets := h _ rfl (by decide +kernel) _ _ _ (.here _ _)
    · cases hnull
    · exact absurd (hfacets.unique rfl [one, one] rfl) (by decide +kernel)
  · obtain ⟨hnull, -⟩ | hfacets := h _ rfl (by decide) _ _ _ (.here _ _)
    · cases hnull
    · exact absurd (hfacets.const _ rfl) (by decide)
  · obtain ⟨hnull, -⟩ | hfacets := h _ rfl (by decide) _ _ _ (.here _ _)
    · cases hnull
    · exact absurd (hfacets.unique rfl [.object [], .object []] rfl) (by decide)
  · have hfirst : { const := some (.string "1") } ∈ textThenNumber.governing "a" :=
      Schema.mem_governing.mpr (.inr (.inl ⟨by decide, _, .head _, by decide +kernel⟩))
    have hgoverns : textThenNumber.Governs (.object [("a", one)]) [.key "a"]
        { const := some (.string "1") } one := .member (.head _) hfirst (.here _ _)
    obtain ⟨hnull, -⟩ | hfacets := h _ rfl (by decide +kernel) _ _ _ hgoverns
    · cases hnull
    · exact absurd (hfacets.const _ rfl) (by decide)

end Validator

end DataSchema
