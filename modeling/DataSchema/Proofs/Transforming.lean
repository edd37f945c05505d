import DataSchema.Pattern.Reader
import DataSchema.Proofs.Reshaping
import DataSchema.Proofs.Widening

/-!
Properties that are let be of another schema too, or arrays.

Each operation puts a union in the place of a property as often as it is named (`foldl_modifyProperty`),
which widens the property and takes its default from where defaults are looked for. A value that passed
passes as before exactly if it does not miss a member whose default went so
(`Validator.validate_transformed`).
-/

namespace DataSchema

theorem Entries.modify_eq_map {α : Type} {entries : List (String × α)} (h : (keys entries).Nodup)
    (key : String) (f : α → α) :
    modify entries key f = entries.map fun e => (e.1, if e.1 = key then f e.2 else e.2) := by
  induction entries with
  | nil => rfl
  | cons e rest ih =>
    rw [keys_cons, List.nodup_cons] at h
    rw [modify, List.map_cons]
    by_cases hk : e.1 = key
    · rw [if_pos hk, if_pos hk]
      refine congrArg ((e.1, f e.2) :: ·) ((List.map_id rest).symm.trans ?_)
      refine List.map_congr_left fun e' he' => ?_
      have hne : e'.1 ≠ key := fun h' => h.1 (hk.trans h'.symm ▸ List.mem_map_of_mem he')
      rw [if_neg hne]
      rfl
    · rw [if_neg hk, if_neg hk, ih h.2]

namespace Schema

variable {s : Schema} {o : Options}

/-! ### Properties that are changed one after another -/

theorem modifyProperty_eq (hkeys : (Entries.keys s.properties).Nodup) (name : String)
    (f : Schema → Schema) :
    s.modifyProperty name f = s.mapProperties fun key c => if key = name then f c else c := by
  rw [modifyProperty, Entries.modify_eq_map hkeys, mapProperties]

theorem mapProperties_mapProperties (s : Schema) (f g : String → Schema → Schema) :
    (s.mapProperties f).mapProperties g = s.mapProperties fun key c => g key (f key c) := by
  simp only [mapProperties, List.map_map]
  rfl

theorem mapProperties_self (s : Schema) : s.mapProperties (fun _ c => c) = s := by
  cases s
  simp [mapProperties]

/-- A property is changed as often as it is named. -/
theorem foldl_modifyProperty (f : Schema → Schema) : ∀ {s : Schema} (names : List String),
    (Entries.keys s.properties).Nodup → names.foldl (fun s name => s.modifyProperty name f) s =
      s.mapProperties fun key => f^[names.count key]
  | s, [], _ => (mapProperties_self s).symm
  | s, name :: rest, hkeys => by
    have hmodified := modifyProperty_eq hkeys name f
    have hkeys' : (Entries.keys (s.modifyProperty name f).properties).Nodup := by
      rw [modifyProperty, Entries.keys_modify]
      exact hkeys
    rw [List.foldl_cons, foldl_modifyProperty f rest hkeys', hmodified, mapProperties_mapProperties]
    congr 1
    funext key c
    rw [List.count_cons]
    by_cases hk : name = key
    · simp [hk]
    · simp [hk, Ne.symm hk]

/-! ### The operations -/

theorem targets_eq {names : Option (List String)}
    (hnames : ∀ ns ∈ names, ∀ name ∈ ns, s.declares name = true) :
    s.targets names = .ok (names.getD s.propertyNames) := by
  cases names with
  | none => rfl
  | some ns =>
    rw [targets, ensureDeclared_eq_ok_iff.mpr (hnames ns rfl)]
    rfl

section Operations

variable {names : Option (List String)} (hsimple : s.isSimpleObject = true)
  (hkeys : (Entries.keys s.properties).Nodup)
  (hnames : ∀ ns ∈ names, ∀ name ∈ ns, s.declares name = true)

include hsimple hkeys hnames

theorem transformProperties_eq (alternate : Schema) : s.transformProperties alternate names =
    .ok (s.mapProperties fun key => (either · alternate)^[(names.getD s.propertyNames).count key]) := by
  rw [transformProperties, ensureSimple_eq hsimple, targets_eq hnames]
  exact congrArg Except.ok (foldl_modifyProperty _ _ hkeys)

theorem transformPropertiesToArray_eq (constraints : Option ArrayFacets) :
    s.transformPropertiesToArray names constraints = .ok (s.mapProperties fun key =>
      (orArray constraints)^[(names.getD s.propertyNames).count key]) := by
  rw [transformPropertiesToArray, ensureSimple_eq hsimple, targets_eq hnames]
  exact congrArg Except.ok (foldl_modifyProperty _ _ hkeys)

theorem unwrapArrayProperties_eq : s.unwrapArrayProperties names =
    .ok (s.mapProperties fun key => unwrapArray^[(names.getD s.propertyNames).count key]) := by
  rw [unwrapArrayProperties, ensureSimple_eq hsimple, targets_eq hnames]
  exact congrArg Except.ok (foldl_modifyProperty _ _ hkeys)

end Operations

/-! ### Defaults that are lost -/

theorem default_iterate {f : Schema → Schema}
    (hf : ∀ c : Schema, c.default = none → (f c).default = none) : ∀ (n : Nat) {c : Schema},
      c.default = none → (f^[n] c).default = none
  | 0, _, h => h
  | n + 1, c, h => default_iterate hf n (hf c h)

theorem exists_count_eq_succ {names : List String} {name : String} (h : name ∈ names) :
    ∃ n, names.count name = n + 1 :=
  Nat.exists_eq_succ_of_ne_zero (Nat.pos_iff_ne_zero.mp (List.count_pos_iff.mpr h))

theorem default_either (alternate : Schema) (names : List String) (name : String) (c : Schema) :
    ((either · alternate)^[names.count name] c).default = if name ∈ names then none else c.default := by
  split
  · next hname =>
    obtain ⟨n, hn⟩ := exists_count_eq_succ hname
    rw [hn]
    exact default_iterate (fun _ _ => rfl) n rfl
  · next hname => rw [List.count_eq_zero.mpr hname, Function.iterate_zero, id]

/-- The names whose properties are not arrays already. -/
def nonArrays (s : Schema) (names : List String) : List String :=
  names.filter fun name => !(Entries.get? s.properties name).any (·.kind == some .array)

theorem mem_nonArrays {names : List String} {name : String} {c : Schema}
    (h : Entries.get? s.properties name = some c) :
    name ∈ s.nonArrays names ↔ name ∈ names ∧ c.kind ≠ some .array := by
  rw [nonArrays, List.mem_filter, h]
  simp

theorem default_orArray (constraints : Option ArrayFacets) (names : List String) {name : String}
    {c : Schema} (h : Entries.get? s.properties name = some c) :
    ((orArray constraints)^[names.count name] c).default =
      if name ∈ s.nonArrays names then none else c.default := by
  have hnone : ∀ c : Schema, c.default = none → (orArray constraints c).default = none := by
    intro c hc
    rw [orArray]
    split
    · exact hc
    · rfl
  split
  · next hname =>
    obtain ⟨hmem, hkind⟩ := (mem_nonArrays h).mp hname
    obtain ⟨n, hn⟩ := exists_count_eq_succ hmem
    have hfirst : (orArray constraints c).default = none := by rw [orArray, if_neg hkind]; rfl
    rw [hn, Function.iterate_succ_apply]
    exact default_iterate hnone n hfirst
  · next hname =>
    rw [mem_nonArrays h, not_and, not_not] at hname
    by_cases hmem : name ∈ names
    · -- an array is left alone, however often it is named
      have hfixed : orArray constraints c = c := if_pos (hname hmem)
      rw [Function.iterate_fixed hfixed]
    · rw [List.count_eq_zero.mpr hmem, Function.iterate_zero, id]

theorem isSome_filler? {name : String} : (s.filler? name).isSome = true ↔
    s.isRequired name = true ∧
      ∃ c, Entries.get? s.properties name = some c ∧ c.default.isSome = true := by
  rw [filler?]
  cases s.isRequired name <;> cases Entries.get? s.properties name <;> simp

variable [Pattern.Engine]

/-- A required member that nothing is filled in for must be there. -/
theorem has_of_passes {members : List (String × Json)} {name : String}
    (hkeys : (Entries.keys s.properties).Nodup) (hcombined : s.hasCombination = false)
    (hp : (s.evaluate o false (.object members)).passes = true) (hrequired : s.isRequired name = true)
    (hfiller : s.filler? name = none) : Entries.has members name = true := by
  rcases evaluate_of_uncombined hcombined hp with ⟨hnull, -⟩ | ⟨admitted, hadmit, -, hcontent, -⟩
  · cases hnull
  · rcases (admit?_eq_some hadmit).2 with rfl | ⟨-, hscalar, -⟩
    · rw [evaluateContent, Outcome.passes_map] at hcontent
      have hthere := (keysHold_of_passes hcontent).required name (List.contains_iff_mem.mp hrequired)
      rw [Entries.has, get?_prepare o hkeys, hfiller, ite_self, Option.or_none] at hthere
      split at hthere
      · exact hthere
      · cases hthere
    · cases hscalar

/-- The value needs no default for the listed names: none is filled in, or it is no object, or it has
every member among them that has a default to be filled in. -/
def Supplied (o : Options) (s : Schema) (names : List String) (value : Json) : Prop :=
  o.useDefaults = true → ∀ members, value = .object members →
    ∀ name ∈ names, (s.filler? name).isSome = true → Entries.has members name = true

section Lost

variable {f : String → Schema → Schema} {lost : List String} {value : Json}
  (hkeys : (Entries.keys s.properties).Nodup)
  (hlost : ∀ name c, Entries.get? s.properties name = some c →
    (f name c).default = if name ∈ lost then none else c.default)

include hkeys hlost

theorem run_of_supplied (hf : ∀ name c, Widens o c (f name c))
    (hs : (s.run o false value).Succeeds) (h : s.Supplied o lost value) :
    (s.mapProperties f).run o false value = s.run o false value := by
  refine run_mapProperties (fun e _ => hf e.1 e.2) (fun members hvalue => ?_) hs
  refine prepare_mapProperties fun hdefaults e he => ?_
  have hget := Entries.get?_of_mem hkeys he
  have hdefault := hlost e.1 e.2 hget
  by_cases hname : e.1 ∈ lost
  · rw [if_pos hname] at hdefault
    refine .inr ⟨hdefault, fun hd hr => h hdefaults members hvalue e.1 hname ?_⟩
    exact isSome_filler?.mpr ⟨hr, e.2, hget, hd⟩
  · rw [if_neg hname] at hdefault
    exact .inl hdefault

theorem supplied_of_passes (hcombined : s.hasCombination = false)
    (hp : ((s.mapProperties f).evaluate o false value).passes = true) : s.Supplied o lost value := by
  rintro - members rfl name hname hfiller
  obtain ⟨hrequired, c, hget, -⟩ := isSome_filler?.mp hfiller
  have hkeys' : (Entries.keys (s.mapProperties f).properties).Nodup := by
    rw [mapProperties, Entries.keys_map]
    exact hkeys
  refine has_of_passes (s := s.mapProperties f) hkeys' hcombined hp hrequired ?_
  rw [filler?, mapProperties, Entries.get?_map, hget, Option.map_some, Option.bind_some,
    hlost name c hget, if_pos hname, ite_self]

end Lost

end Schema

namespace Validator

/-- The validator passes the value and leaves of it what is given. -/
def Leaves [Pattern.Engine] (v : Validator) (value left : Json) : Prop :=
  ∃ r, v.validate? value = some r ∧ r.issues = [] ∧ r.value = left

theorem leaves_iff [Pattern.Engine] {s : Schema} {o : Options} {v : Validator} (h : compile s o = .ok v)
    {value left : Json} : v.Leaves value left ↔ s.run o false value = .ok left := by
  obtain ⟨rfl, rfl⟩ := compile_eq_ok h
  simp only [Leaves, validate?_eq_some]
  constructor
  · rintro ⟨_, ⟨hend, rfl⟩, hissues, rfl⟩
    exact Run.Succeeds.eq_ok ⟨(Report.issues_ofOutcome_eq_nil _ _).mp hissues, hend⟩
  · intro hrun
    have hend : v.breaksOff value = false := congrArg Run.breaksOff hrun
    have hreport : v.validate value = .ofOutcome v.options (.ok left) :=
      congrArg (fun x : Run Json => Report.ofOutcome v.options x.toOutcome) hrun
    exact ⟨_, ⟨hend, hreport⟩, (Report.issues_ofOutcome_eq_nil _ _).mpr rfl, rfl⟩

/-- The properties of a closed object schema can be let be of another schema too, or arrays. A value that passes
the schema passes as before after either, exactly if it misses no member whose default was lost. -/
theorem validate_transformed [Pattern.Engine] {s : Schema} (names : Option (List String))
    (alternate : Schema) (constraints : Option ArrayFacets) (hsimple : s.isSimpleObject = true)
    (hkeys : (Entries.keys s.properties).Nodup)
    (hnames : ∀ ns ∈ names, ∀ name ∈ ns, s.declares name = true) :
    ∃ t u, s.transformProperties alternate names = .ok t ∧
      s.transformPropertiesToArray names constraints = .ok u ∧
      ∀ o v value left, compile s o = .ok v → v.Leaves value left →
        (∀ v', compile t o = .ok v' →
          (v'.Leaves value left ↔ s.Supplied o (names.getD s.propertyNames) value)) ∧
        (∀ v', compile u o = .ok v' →
          (v'.Leaves value left ↔ s.Supplied o (s.nonArrays (names.getD s.propertyNames)) value)) := by
  refine ⟨_, _, Schema.transformProperties_eq hsimple hkeys hnames alternate,
    Schema.transformPropertiesToArray_eq hsimple hkeys hnames constraints,
    fun o v value left hv hleaves => ?_⟩
  have hrun := (leaves_iff hv).mp hleaves
  have hs : (s.run o false value).Succeeds := by rw [hrun]; exact ⟨rfl, rfl⟩
  obtain ⟨-, -, hcombined⟩ := Schema.isSimpleObject_iff.mp hsimple
  -- one argument for both: the properties are wider, and some defaults are lost
  have hmapped : ∀ {f : String → Schema → Schema} {lost : List String},
      (∀ name c, Schema.Widens o c (f name c)) →
      (∀ name c, Entries.get? s.properties name = some c →
        (f name c).default = if name ∈ lost then none else c.default) →
      ∀ v', compile (s.mapProperties f) o = .ok v' →
        (v'.Leaves value left ↔ s.Supplied o lost value) := by
    intro f lost hf hlost v' hv'
    rw [leaves_iff hv']
    constructor
    · intro hrun'
      exact Schema.supplied_of_passes hkeys hlost hcombined (by rw [Schema.evaluate, hrun']; rfl)
    · intro hsupplied
      rw [Schema.run_of_supplied hkeys hlost hf hs hsupplied, hrun]
  constructor
  · exact hmapped (fun _ => Schema.widens_iterate (fun c => Schema.widens_either o c alternate) _)
      fun name c _ => Schema.default_either alternate _ name c
  · exact hmapped (fun _ => Schema.widens_iterate (Schema.widens_orArray o constraints) _)
      fun _ _ hget => Schema.default_orArray constraints _ hget

/-- A closed object with a required number, which is zero unless it is given. -/
def counter : Schema where
  kind := some .object
  additional := .allowed false
  properties := [("n", { Schema.ofKind .number with default := some (.ofNat 0) })]
  required := some ["n"]

/-- A number that is given as a text is converted as before. -/
theorem validate_transformed_counter :
    ∃ t u v v', counter.transformProperties (Schema.ofKind .string) none = .ok t ∧
      counter.transformPropertiesToArray none none = .ok u ∧
      compile t rewriting = .ok v ∧ compile u rewriting = .ok v' ∧
      v.Leaves (.object [("n", .string "5")]) (.object [("n", .ofNat 5)]) ∧
      v'.Leaves (.object [("n", .string "5")]) (.object [("n", .ofNat 5)]) := by
  have hcompiled : compile counter rewriting = .ok ⟨counter, rewriting, rfl⟩ := rfl
  have hleaves : (Validator.mk counter rewriting rfl).Leaves (.object [("n", .string "5")])
      (.object [("n", .ofNat 5)]) := (leaves_iff hcompiled).mpr rfl
  have hsupplied : ∀ names, counter.Supplied rewriting names (.object [("n", .string "5")]) := by
    rintro names - members ⟨⟩ name - hfiller
    have hrequired := (Schema.isSome_filler?.mp hfiller).1
    have hname : name = "n" := by
      simpa [counter, Schema.isRequired, Schema.requiredNames] using hrequired
    rw [hname]
    rfl
  have hnames : ∀ ns ∈ (none : Option (List String)), ∀ name ∈ ns, counter.declares name = true := by
    simp
  obtain ⟨t, u, ht, hu, hboth⟩ := validate_transformed none (Schema.ofKind .string) none rfl (by decide)
    hnames
  obtain ⟨hkept, hkept'⟩ := hboth _ _ _ _ hcompiled hleaves
  obtain rfl := Except.ok.inj ht
  obtain rfl := Except.ok.inj hu
  exact ⟨_, _, _, _, rfl, rfl, rfl, rfl, (hkept ⟨_, _, rfl⟩ rfl).mpr (hsupplied _),
    (hkept' ⟨_, _, rfl⟩ rfl).mpr (hsupplied _)⟩

/-- An object without the number passes, but not any more once the number may be a text or an array of
numbers. -/
theorem counter_transformed_refuses :
    (Validator.mk counter {} rfl).Leaves (.object []) (.object [("n", .ofNat 0)]) ∧
      ∃ t u v v', counter.transformProperties (Schema.ofKind .string) none = .ok t ∧
        counter.transformPropertiesToArray none none = .ok u ∧
        compile t {} = .ok v ∧ compile u {} = .ok v' ∧
        ¬ v.Leaves (.object []) (.object [("n", .ofNat 0)]) ∧
        ¬ v'.Leaves (.object []) (.object [("n", .ofNat 0)]) := by
  have hcompiled : compile counter {} = .ok ⟨counter, {}, rfl⟩ := rfl
  refine ⟨(leaves_iff hcompiled).mpr rfl, _, _, ⟨_, {}, rfl⟩, ⟨_, {}, rfl⟩, rfl, rfl, rfl, rfl, ?_, ?_⟩
  · rintro ⟨r, hr, hissues, -⟩
    obtain ⟨-, rfl⟩ := validate?_eq_some.mp hr
    exact absurd hissues (by decide)
  · rintro ⟨r, hr, hissues, -⟩
    obtain ⟨-, rfl⟩ := validate?_eq_some.mp hr
    exact absurd hissues (by decide)

end Validator

end DataSchema
