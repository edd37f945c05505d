import DataSchema.Pattern.Reader
import DataSchema.Proofs.PointerText
import DataSchema.Proofs.Rewritten
import DataSchema.Proofs.Visiting

/-!
The order in which findings are reported.

A run that no finding ends reports what breaks rules of the value itself, then what is found in its parts,
one after another. Without combinations and with at most one pattern at each schema, no part is gone over
twice. So the findings come in document order (`Schema.Precedes`): what is found at a part is reported before
what is found deeper in it, elements are reported by their index, and members in the order in which they are
visited.
-/

namespace DataSchema

namespace Outcome

variable {α : Type}

theorem eachItem_false (rule : α → Outcome α) : ∀ (items : List α) (index : Nat),
    eachItem false rule index items =
      ⟨items.map fun x => (rule x).value,
        (items.zipIdx index).flatMap fun e => ((rule e.1).under (toString e.2)).findings⟩
  | [], _ => rfl
  | x :: rest, index => by
    rw [eachItem_cons, cons_eq, eachItem_false rule rest]
    rfl

end Outcome

namespace Schema

/-! ### Documents -/

variable [Pattern.Engine]

/-- The schema that governs the part of a value under a token. -/
def below? (s : Schema) (value : Json) (token : String) : Option Schema :=
  match value with
  | .array _ => s.items
  | .object _ => (s.governing token).head?
  | _ => none

/-- The part of a value that tokens lead to, with the schema that governs it. -/
def governed? (s : Schema) (value : Json) : List String → Option (Schema × Json)
  | [] => some (s, value)
  | token :: rest =>
    (s.below? value token).bind fun t => (Pointer.step? value token).bind fun x => t.governed? x rest

/-- Of the keys of an object one comes before another: by their turns, and in one turn by the declarations if
they are declared, and else as the keys stand. -/
def KeyBefore (s : Schema) (keys : List String) (a b : String) : Prop :=
  s.turn a < s.turn b ∨
    s.turn a = s.turn b ∧ [a, b].Sublist (if s.turn a = 0 then s.propertyNames else keys)

/-- The part of a value under one token comes before the part under another. -/
def Before (s : Schema) (value : Json) (a b : String) : Prop :=
  match value with
  | .array _ => ∃ i j : Nat, a = toString i ∧ b = toString j ∧ i < j
  | .object members => s.KeyBefore (Entries.keys members) a b
  | _ => False

/-- One path precedes another in document order: it does not lead on from the other one, and where the two
part, the part of the value left that it leads to comes before the other. What was there in the value given
has the same order. -/
structure Precedes (s : Schema) (given left : Json) (p q : List String) : Prop where
  not_below : ¬ (q <+: p ∧ q ≠ p)
  parting : ∀ u a b, u ++ [a] <+: p → u ++ [b] <+: q → a ≠ b →
    ∃ t part, s.governed? left u = some (t, part) ∧ t.Before part a b ∧
      ∀ before, Pointer.resolve? given u = some before → t.Before before a b

variable {o : Options} {s t : Schema} {given left x y : Json} {p q : List String} {a b key : String}

/-- What is found at a value itself precedes everything. -/
theorem precedes_nil (s : Schema) (given left : Json) (q : List String) : s.Precedes given left [] q where
  not_below h := h.2 (List.prefix_nil.mp h.1)
  parting u a _ ha := by
    have hnil := List.prefix_nil.mp ha
    cases u <;> cases hnil

/-- The order in a part is the order of what is found there, seen from the whole value. -/
theorem Precedes.under (h : t.Precedes x y p q) (hbelow : s.below? left key = some t)
    (hleft : Pointer.step? left key = some y)
    (hgiven : ∀ z, Pointer.step? given key = some z → z = x) :
    s.Precedes given left (key :: p) (key :: q) where
  not_below hq := h.not_below
    ⟨(List.cons_prefix_cons.mp hq.1).2, fun heq => hq.2 (congrArg (key :: ·) heq)⟩
  parting u a b ha hb hne := by
    cases u with
    | nil =>
      obtain ⟨rfl, -⟩ := List.cons_prefix_cons.mp ha
      exact (hne (List.cons_prefix_cons.mp hb).1.symm).elim
    | cons k u =>
      obtain ⟨rfl, ha'⟩ := List.cons_prefix_cons.mp ha
      obtain ⟨-, hb'⟩ := List.cons_prefix_cons.mp hb
      obtain ⟨v, part, hgoverned, hbefore, hsame⟩ := h.parting u a b ha' hb' hne
      refine ⟨v, part, ?_, hbefore, fun before hresolve => ?_⟩
      · rw [governed?, hbelow, Option.bind_some, hleft, Option.bind_some, hgoverned]
      · obtain ⟨z, hz, hresolve⟩ := Option.bind_eq_some_iff.mp hresolve
        exact hsame before (hgiven z hz ▸ hresolve)

/-- What is found in a part precedes what is found in a part that comes after it. -/
theorem precedes_of_before (hne : a ≠ b) (hleft : s.Before left a b) (hgiven : s.Before given a b) :
    s.Precedes given left (a :: p) (b :: q) where
  not_below h := hne (List.cons_prefix_cons.mp h.1).1.symm
  parting u c d hc hd hcd := by
    cases u with
    | nil =>
      obtain ⟨rfl, -⟩ := List.cons_prefix_cons.mp hc
      obtain ⟨rfl, -⟩ := List.cons_prefix_cons.mp hd
      refine ⟨s, left, rfl, hleft, fun before hbefore => ?_⟩
      cases hbefore
      exact hgiven
    | cons k u =>
      obtain ⟨rfl, -⟩ := List.cons_prefix_cons.mp hc
      exact (hne (List.cons_prefix_cons.mp hd).1).elim

/-! ### Runs -/

/-- The findings of a run come in document order. -/
def InOrder (s : Schema) (given : Json) (x : Outcome Json) : Prop :=
  x.findings.Pairwise fun f g => s.Precedes given x.value f.path g.path

/-- Broken rules of the value itself are reported before everything else. -/
theorem InOrder.broken_append {r : Outcome Json} (h : s.InOrder given r) (vs : List Violation) :
    s.InOrder given ⟨r.value, vs.map Finding.here ++ r.findings⟩ := by
  have hhere : ∀ f ∈ vs.map Finding.here, ∀ g : Finding, s.Precedes given r.value f.path g.path := by
    intro f hf g
    obtain ⟨v, -, rfl⟩ := List.mem_map.mp hf
    exact precedes_nil s given r.value g.path
  refine List.pairwise_append.mpr ⟨?_, h, fun f hf g _ => hhere f hf g⟩
  exact List.pairwise_of_forall_mem_list fun f hf g _ => hhere f hf g

theorem inOrder_ok (s : Schema) (given left : Json) : s.InOrder given (.ok left) := List.Pairwise.nil

theorem inOrder_broken (s : Schema) (given left : Json) (vs : List Violation) :
    s.InOrder given (.broken left vs) := by
  have h := (inOrder_ok s given left).broken_append vs
  rwa [Outcome.ok, List.append_nil] at h

section Elements

variable {items : List Json}

omit [Pattern.Engine] in
theorem pairwise_zipIdx (items : List Json) : items.zipIdx.Pairwise fun e e' => e.2 < e'.2 := by
  have hrange : (items.zipIdx.map Prod.snd).Pairwise (· < ·) := by
    rw [List.zipIdx_map_snd]
    exact List.pairwise_lt_range' 1
  exact List.pairwise_map.mp hrange

theorem inOrder_eachItem (hitems : s.items = some t) (h : ∀ x ∈ items, t.InOrder x (t.evaluate o false x)) :
    s.InOrder (.array items)
      ((Outcome.eachItem false (t.evaluate o false) 0 items).map .array) := by
  rw [Outcome.eachItem_false]
  refine List.pairwise_flatMap.mpr ⟨fun ⟨x, i⟩ hx => ?_, ?_⟩
  · rw [List.mk_mem_zipIdx_iff_getElem?] at hx
    refine List.pairwise_map.mpr ((h x (List.mem_of_getElem? hx)).imp fun hfg => ?_)
    refine hfg.under hitems ?_ fun z hz => ?_
    · refine (Pointer.step?_index _ i).trans ?_
      rw [List.getElem?_map, hx]
      rfl
    · rw [Pointer.step?_index, hx] at hz
      exact (Option.some.inj hz).symm
  · refine (pairwise_zipIdx items).imp fun {e e'} hlt f hf g hg => ?_
    obtain ⟨f, -, rfl⟩ := List.mem_map.mp hf
    obtain ⟨g, -, rfl⟩ := List.mem_map.mp hg
    have hne : toString e.2 ≠ toString e'.2 := by
      intro heq
      have hindex := Pointer.index?_toString e.2
      rw [heq, Pointer.index?_toString] at hindex
      exact absurd (Option.some.inj hindex) hlt.ne'
    exact precedes_of_before hne ⟨e.2, e'.2, rfl, rfl, hlt⟩ ⟨e.2, e'.2, rfl, rfl, hlt⟩

end Elements

section Members

variable {members : List (String × Json)} {keys : List String}

theorem KeyBefore.ne (h : s.KeyBefore keys a b) (hnames : s.propertyNames.Nodup) (hkeys : keys.Nodup) :
    a ≠ b := by
  rintro rfl
  rcases h with hlt | ⟨-, hsublist⟩
  · exact Nat.lt_irrefl _ hlt
  · have hnodup : (if s.turn a = 0 then s.propertyNames else keys).Nodup := by
      split
      · exact hnames
      · exact hkeys
    simpa using hnodup.sublist hsublist

/-- Keys of one turn come in their order. -/
theorem pairwise_keyBefore {names : List String} {i : Nat} (hturn : ∀ key ∈ names, s.turn key = i)
    (hnames : names.Sublist (if i = 0 then s.propertyNames else keys)) :
    names.Pairwise (s.KeyBefore keys) := by
  refine List.pairwise_iff_forall_sublist.mpr fun {a b} hsublist => .inr ?_
  rw [hturn a (hsublist.subset List.mem_cons_self), hturn b (hsublist.subset (by simp))]
  exact ⟨rfl, hsublist.trans hnames⟩

theorem pairwise_visitOrder (s : Schema) (keys : List String) :
    (s.visitOrder keys).Pairwise (s.KeyBefore keys) := by
  have hfiltered : ∀ i, i ≠ 0 → (keys.filter (s.turn · = i)).Pairwise (s.KeyBefore keys) := by
    intro i hi
    refine pairwise_keyBefore (fun key hkey => turn_of_mem_filter hkey) ?_
    rw [if_neg hi]
    exact List.filter_sublist
  have hpatterned : (keys.filter (s.turn · = 1) ++ keys.filter (s.turn · = 2)).Pairwise
      (s.KeyBefore keys) := by
    refine List.pairwise_append.mpr ⟨hfiltered 1 (by decide), hfiltered 2 (by decide),
      fun a ha b hb => .inl ?_⟩
    rw [turn_of_mem_filter ha, turn_of_mem_filter hb]
    decide
  refine List.pairwise_append.mpr ⟨pairwise_keyBefore
    (fun name hname => turn_of_mem_propertyNames hname) (List.Sublist.refl _), hpatterned,
    fun a ha b hb => .inl ?_⟩
  rw [turn_of_mem_propertyNames ha]
  exact turn_pos_of_mem hb

/-- The members that are not declared stay in their order, those that are dropped apart. -/
theorem sublist_keys_prepare (o : Options) (s : Schema) (members : List (String × Json)) :
    ((Entries.keys (s.prepare o members)).filter (!s.declares ·)).Sublist (Entries.keys members) := by
  have hkept : (Entries.keys (if o.removeAdditional then s.dropExtra members else members)).Sublist
      (Entries.keys members) := by
    rw [dropExtra]
    split
    · split
      · exact List.Sublist.refl _
      · exact List.filter_sublist.map _
    · exact List.Sublist.refl _
  rw [prepare]
  split
  · refine fillDefaults_rec (List.filter_sublist.trans hkept) fun filled name t d ht _ _ hfilled => ?_
    have hnone : (Entries.keys [(name, d)]).filter (!s.declares ·) = [] := by
      simp [Entries.keys, declares_of_mem ht]
    rw [Entries.keys_append, List.filter_append, hnone, List.append_nil]
    exact hfilled
  · exact List.filter_sublist.trans hkept

/-- The keys come in the same order as before the object was prepared. -/
theorem KeyBefore.of_prepare (h : s.KeyBefore (Entries.keys (s.prepare o members)) a b) :
    s.KeyBefore (Entries.keys members) a b := by
  refine h.imp_right fun ⟨hturn, hsublist⟩ => ⟨hturn, ?_⟩
  by_cases hdeclared : s.turn a = 0
  · rwa [if_pos hdeclared] at hsublist ⊢
  · rw [if_neg hdeclared] at hsublist ⊢
    have hundeclared : ∀ key ∈ [a, b], (!s.declares key) = true := by
      have hb : ¬s.turn b = 0 := hturn ▸ hdeclared
      rw [turn_eq_zero, Bool.not_eq_true] at hdeclared hb
      simp [hdeclared, hb]
    have hfiltered := (hsublist.filter (!s.declares ·)).trans (sublist_keys_prepare o s members)
    rwa [List.filter_eq_self.mpr hundeclared] at hfiltered

omit [Pattern.Engine] in
theorem exists_under_of_mem_findingsAt {rule : String → Json → Outcome Json} {f : Finding}
    (h : f ∈ Outcome.findingsAt rule members key) : ∃ g : Finding, f = g.under key := by
  rw [Outcome.findingsAt] at h
  split at h
  · obtain ⟨g, -, rfl⟩ := List.mem_map.mp h
    exact ⟨g, rfl⟩
  · cases h

/-- Members that are visited once each, in their turns. -/
theorem inOrder_visits (hnames : s.propertyNames.Nodup) (hone : s.patternProperties.length ≤ 1)
    (hkeys : (Entries.keys (s.prepare o members)).Nodup) {r : Outcome (List (String × Json))}
    (hvisits : Outcome.Visits (s.evaluateMember o) (s.visitOrder (Entries.keys (s.prepare o members)))
      (s.prepare o members) r)
    (h : ∀ t, Child t s → ∀ e ∈ s.prepare o members, t.InOrder e.2 (t.evaluate o false e.2)) :
    s.InOrder (.object members) (r.map .object) := by
  rw [InOrder, Outcome.map, hvisits.findings_eq, hvisits.value_eq]
  refine List.pairwise_flatMap.mpr ⟨fun key _ => ?_, ?_⟩
  · rw [Outcome.findingsAt]
    cases hx : Entries.get? (s.prepare o members) key with
    | none => exact List.Pairwise.nil
    | some x =>
      cases hgoverning : s.governing key with
      | nil =>
        rw [evaluateMember, hgoverning, Outcome.inTurn_nil]
        exact List.Pairwise.nil
      | cons t rest =>
        have ht : t ∈ s.governing key := hgoverning ▸ List.mem_cons_self
        have hsole := governing_of_mem hnames hone ht
        have hrun : s.evaluateMember o key = t.evaluate o false := by
          rw [evaluateMember, hsole, Outcome.inTurn_singleton]
        have horder := h t (child_of_mem_governing ht) (key, x) (Entries.mem_of_get? hx)
        rw [hrun]
        refine List.pairwise_map.mpr (horder.imp fun hfg => hfg.under ?_ ?_ fun z hz => ?_)
        · rw [below?, hsole]
          rfl
        · refine (Entries.get?_map (fun k y => (s.evaluateMember o k y).value) _ key).trans ?_
          rw [hx, hrun]
          rfl
        · exact (get?_prepare_of_some hz hx).symm
  · refine (pairwise_visitOrder s _).imp fun {a b} hbefore f hf g hg => ?_
    obtain ⟨f, rfl⟩ := exists_under_of_mem_findingsAt hf
    obtain ⟨g, rfl⟩ := exists_under_of_mem_findingsAt hg
    refine precedes_of_before (hbefore.ne hnames hkeys) ?_ hbefore.of_prepare
    rwa [Before, Entries.keys_map fun k y => (s.evaluateMember o k y).value]

theorem inOrder_members (ho : o.stops = false) (hnames : s.propertyNames.Nodup)
    (hone : s.patternProperties.length ≤ 1) (hkeys : (Entries.keys members).Nodup)
    (h : ∀ t, Child t s → ∀ e ∈ s.prepare o members, t.InOrder e.2 (t.evaluate o false e.2)) :
    s.InOrder (.object members) ((s.evaluateMembers o (s.prepare o members)).map .object) := by
  have hprepared := nodup_keys_prepare o s hkeys
  have hvisits := visits_evaluateMembers ho hprepared hnames
  rw [ho] at hvisits
  rw [evaluateMembers, ho, Outcome.andThen_false]
  exact (inOrder_visits hnames hone hprepared hvisits h).broken_append _

end Members

/-! ### Whole runs -/

theorem evaluateContent_scalar (hs : x.isScalar = true) :
    ∃ vs, s.evaluateContent o false x = .broken x vs := by
  cases x with
  | string text => exact ⟨_, rfl⟩
  | number n => exact ⟨_, rfl⟩
  | null => exact ⟨[], rfl⟩
  | bool b => exact ⟨[], rfl⟩
  | array items => cases hs
  | object members => cases hs

theorem inOrder_elements (ho : o.stops = false) {items : List Json}
    (h : ∀ t, Child t s → ∀ y ∈ items, t.InOrder y (t.evaluate o false y)) :
    s.InOrder (.array items) ((s.evaluateElements o false items).map .array) := by
  rw [evaluateElements, ho]
  cases hitems : s.items with
  | none => exact List.Pairwise.nil
  | some t => exact inOrder_eachItem hitems (h t (.items hitems))

theorem inOrder_content (ho : o.stops = false) (hs : s.WellKeyed)
    (hone : s.patternProperties.length ≤ 1) (hvalue : x.WellKeyed)
    (h : ∀ t, Child t s → ∀ y : Json, y.WellKeyed → t.InOrder y (t.evaluate o false y)) :
    s.InOrder x (s.evaluateContent o false x) := by
  cases x with
  | array items =>
    rw [evaluateContent, ho, Outcome.andThen_false]
    exact (inOrder_elements ho fun t ht y hy => h t ht y (hvalue.items y hy)).broken_append _
  | object members =>
    refine inOrder_members ho hs.names hone hvalue.keys fun t ht e he => ?_
    exact h t ht e.2 ((wellKeyed_prepare o hs hvalue).members e he)
  | string text => exact inOrder_broken s _ _ _
  | number n => exact inOrder_broken s _ _ _
  | null => exact inOrder_ok s _ _
  | bool b => exact inOrder_ok s _ _

/-- A run that no finding ends reports in document order, without combinations and with at most one pattern
at each schema. -/
theorem inOrder_evaluate (ho : o.stops = false) (s : Schema) : ∀ value : Json, s.WellKeyed →
    (∀ t, Within t s → t.hasCombination = false ∧ t.patternProperties.length ≤ 1) →
      value.WellKeyed → s.InOrder value (s.evaluate o false value) := by
  induction s using Schema.induction with
  | step s ih =>
    intro value hkeyed hplain hvalue
    obtain ⟨huncombined, hone⟩ := hplain s (.refl s)
    by_cases hnull : value = .null ∧ s.nullable = true
    · rw [evaluate_null hnull]
      exact inOrder_ok s _ _
    cases hadmit : s.admit? o value with
    | none =>
      rw [evaluate_refused hnull hadmit]
      exact inOrder_broken s _ _ _
    | some admitted =>
      rw [evaluate_admitted hnull hadmit, evaluateCombinations_of_uncombined huncombined,
        Outcome.andThen_ok, ho, Outcome.andThen_false]
      refine InOrder.broken_append ?_ _
      rcases (admit?_eq_some hadmit).2 with rfl | ⟨-, -, hscalar⟩
      · exact inOrder_content ho hkeyed hone hvalue fun t ht y hy =>
          ih t ht y (hkeyed.child ht) (fun u hu => hplain u (.step ht hu)) hy
      · obtain ⟨vs, hrun⟩ := evaluateContent_scalar (o := o) (s := s) hscalar
        rw [Outcome.value_broken, hrun]
        exact inOrder_broken s _ _ vs

end Schema

namespace Validator

/-- Where all errors are reported, they come in document order. -/
theorem issues_inOrder [Pattern.Engine] {s : Schema} {o : Options} {v : Validator} {value : Json}
    (h : compile s o = .ok v) (hall : o.allErrors = true) (hkeyed : s.WellKeyed)
    (hplain : ∀ t, Schema.Within t s → t.hasCombination = false ∧ t.patternProperties.length ≤ 1)
    (hvalue : value.WellKeyed) :
    (v.validate value).issues.Pairwise fun i j => ∃ p q, Pointer.parse? i.instancePath = some p ∧
      Pointer.parse? j.instancePath = some q ∧ s.Precedes value (v.validate value).value p q := by
  obtain ⟨rfl, rfl⟩ := compile_eq_ok h
  have hstops : v.options.stops = false := by rw [Options.stops, hall]; rfl
  have hissues : (v.validate value).issues =
      (v.schema.evaluate v.options false value).findings.map Finding.toIssue := by
    rw [validate, Report.ofOutcome, if_pos hall]
  rw [hissues, List.pairwise_map]
  refine (v.schema.inOrder_evaluate hstops value hkeyed hplain hvalue).imp fun {f g} hfg => ?_
  exact ⟨f.path, g.path, Pointer.parse?_render f.path, Pointer.parse?_render g.path, hfg⟩

/-- A title and tags, flags under the keys that begin with an x, and numbers under all others. -/
def catalog : Schema where
  kind := some .object
  properties := [("title", Schema.ofKind .string), ("tags", Schema.arrayOf (Schema.ofKind .string))]
  patternProperties := [("^x", Schema.ofKind .boolean)]
  additional := .schema (Schema.ofKind .number)

/-- Nothing in it is as it should be, apart from one tag. -/
def jumble : Json :=
  .object [("z", .null), ("xb", .null), ("tags", .array [.null, .string "new", .null]), ("a", .null),
    ("xa", .null), ("title", .null)]

theorem issues_catalog :
    ∃ v, compile catalog {} = .ok v ∧
      (v.validate jumble).issues.map (·.instancePath) =
        ["/title", "/tags/0", "/tags/2", "/xb", "/xa", "/z", "/a"] ∧
      (v.validate jumble).issues.Pairwise fun i j => ∃ p q, Pointer.parse? i.instancePath = some p ∧
        Pointer.parse? j.instancePath = some q ∧
        catalog.Precedes jumble (v.validate jumble).value p q := by
  have hcompiled : compile catalog {} = .ok ⟨catalog, {}, rfl⟩ := rfl
  have hkeyed : catalog.WellKeyed := Schema.of_allWithin 3 (by decide)
  have hplain : ∀ t, Schema.Within t catalog →
      t.hasCombination = false ∧ t.patternProperties.length ≤ 1 := Schema.of_allWithin 3 (by decide)
  refine ⟨_, hcompiled, by decide +kernel, ?_⟩
  exact issues_inOrder hcompiled rfl hkeyed hplain (by decide)

end Validator

end DataSchema
