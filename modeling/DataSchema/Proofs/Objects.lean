import DataSchema.Proofs.Acceptance
import DataSchema.Proofs.Members

/-!
Objects, member by member.

Where no key stands twice in an object, its members are judged each by itself, by all schemas that govern
its key (`Schema.forall_part_object_iff`). Without combinations this, the constants and the demands on the
keys are all that an object schema asks (`Schema.ReadsParts.object_iff`). So it is for every judgement that reads
schemas without combinations in this way, be it what they accept or what their runs clear.
-/

namespace DataSchema.Schema

variable [Pattern.Engine]
variable {A : Schema → Json → Prop} {s t : Schema} {key : String} {members : List (String × Json)}

theorem mem_governing : t ∈ s.governing key ↔ (key, t) ∈ s.properties ∨
    (s.declares key = false ∧
      ∃ pattern, (pattern, t) ∈ s.patternProperties ∧ Pattern.accepts pattern key = true) ∨
    (s.additional = .schema t ∧ s.isExtra key = true) := by
  have hdeclared : t ∈ (s.properties.filter (·.1 = key)).map (·.2) ↔ (key, t) ∈ s.properties := by
    simp
  have hpatterned : t ∈ (if s.declares key then [] else
      (s.patternProperties.filter (Pattern.accepts ·.1 key)).map (·.2)) ↔ s.declares key = false ∧
        ∃ pattern, (pattern, t) ∈ s.patternProperties ∧ Pattern.accepts pattern key = true := by
    cases s.declares key <;> simp
  rw [governing, List.mem_append, List.mem_append, hdeclared, hpatterned]
  refine or_congr_right (or_congr_right ?_)
  cases s.additional with
  | schema u => cases s.isExtra key <;> simp [eq_comm]
  | _ => simp

theorem child_of_mem_governing (h : t ∈ s.governing key) : Child t s := by
  rcases mem_governing.mp h with hdeclared | ⟨_, _, hpattern, _⟩ | ⟨hadditional, _⟩
  · exact .property hdeclared
  · exact .pattern hpattern
  · exact .additional hadditional

theorem length_governing_le (hnames : (Entries.keys s.properties).Nodup)
    (hone : s.patternProperties.length ≤ 1) (key : String) : (s.governing key).length ≤ 1 := by
  cases hdeclared : Entries.get? s.properties key with
  | some t =>
    rw [governing_of_declared hnames hdeclared]
    exact Nat.le_refl 1
  | none =>
    have hpatterns := Nat.le_trans (List.length_filter_le (Pattern.accepts ·.1 key) _) hone
    rw [governing_of_undeclared (not_declares_of_get? hdeclared)]
    cases hmatches : s.matchesKey key with
    | true => cases s.additional <;> simpa using hpatterns
    | false =>
      have hnone : s.patternProperties.filter (Pattern.accepts ·.1 key) = [] :=
        List.filter_eq_nil_iff.mpr (List.any_eq_false.mp hmatches)
      rw [hnone]
      cases s.additional <;> simp

/-- Where there is at most one pattern, no member is governed by two schemas. -/
theorem governing_of_mem (hnames : (Entries.keys s.properties).Nodup)
    (hone : s.patternProperties.length ≤ 1) (h : t ∈ s.governing key) : s.governing key = [t] := by
  obtain ⟨u, hu⟩ := List.length_eq_one_iff.mp
    (Nat.le_antisymm (length_governing_le hnames hone key) (List.length_pos_of_mem h))
  rw [hu, List.mem_singleton] at h
  rw [hu, h]

/-- What holds of the members of an object and the schemas that govern them, key by key. -/
theorem forall_part_object_iff {p : Schema → Json → Prop} (hkeys : (Entries.keys members).Nodup) :
    (∀ t x, s.Part (.object members) t x → p t x) ↔
      ∀ e ∈ members, ∀ t ∈ s.governing e.1, p t e.2 := by
  constructor
  · rintro h ⟨key, x⟩ he t ht
    rcases mem_governing.mp ht with hdeclared | ⟨hnew, pattern, hpattern, haccepts⟩ | ⟨hs, hextra⟩
    · exact h t x (.declared hdeclared (Entries.get?_of_mem hkeys he))
    · exact h t x (.patterned he hnew hpattern haccepts)
    · exact h t x (.extra he hextra hs)
  · intro h t x hpart
    cases hpart with
    | declared hs hx => exact h _ (Entries.mem_of_get? hx) t (mem_governing.mpr (.inl hs))
    | patterned hx hnew hs haccepts =>
      exact h _ hx t (mem_governing.mpr (.inr (.inl ⟨hnew, _, hs, haccepts⟩)))
    | extra hx hextra hs => exact h _ hx t (mem_governing.mpr (.inr (.inr ⟨hs, hextra⟩)))

omit [Pattern.Engine] in
theorem kind_eq_object (hobject : s.isObject = true) : ∀ kind ∈ s.kind, kind = .object := by
  intro kind hs
  rw [isObject, hs, beq_iff_eq] at hobject
  exact hobject

/-- A schema without combinations that names no other kind than objects judges an object by its constants,
its demands on the keys, and the schemas that govern the members. -/
theorem ReadsParts.members_iff (hA : ReadsParts A) (hobject : ∀ kind ∈ s.kind, kind = .object)
    (hcombined : s.hasCombination = false) (hkeys : (Entries.keys members).Nodup) :
    A s (.object members) ↔
      (∀ c ∈ s.const, Json.equivalent c (.object members) = true) ∧
        (∀ cs ∈ s.enum, ∃ c ∈ cs, Json.equivalent c (.object members) = true) ∧
        s.KeysHold members ∧ ∀ e ∈ members, ∀ t ∈ s.governing e.1, A t e.2 := by
  have hkind : ∀ kind ∈ s.kind, (Json.object members).hasKind kind = true := by
    intro kind hs
    rw [hobject kind hs]
    rfl
  rw [hA hcombined, or_iff_right (by simp), forall_part_object_iff hkeys]
  constructor
  · rintro ⟨⟨-, hconst, henum, hown⟩, hparts⟩
    exact ⟨hconst, henum, hown, hparts⟩
  · rintro ⟨hconst, henum, hown, hparts⟩
    exact ⟨⟨hkind, hconst, henum, hown⟩, hparts⟩

/-- An object schema without combinations judges an object by its constants, its demands on the keys, and the
schemas that govern the members. -/
theorem ReadsParts.object_iff (hA : ReadsParts A) (hobject : s.isObject = true)
    (hcombined : s.hasCombination = false) (hkeys : (Entries.keys members).Nodup) :
    A s (.object members) ↔
      (∀ c ∈ s.const, Json.equivalent c (.object members) = true) ∧
        (∀ cs ∈ s.enum, ∃ c ∈ cs, Json.equivalent c (.object members) = true) ∧
        s.KeysHold members ∧ ∀ e ∈ members, ∀ t ∈ s.governing e.1, A t e.2 :=
  hA.members_iff (kind_eq_object hobject) hcombined hkeys

/-! ### Single members -/

/-- An object of the schema may have the member: it is no extra one of a closed schema, and all schemas that
govern its key judge well of it. -/
def Admits (A : Schema → Json → Prop) (s : Schema) (e : String × Json) : Prop :=
  (s.isOpen = false → s.isExtra e.1 = false) ∧ ∀ t ∈ s.governing e.1, A t e.2

/-- What a schema asks of an object, with what it asks of each member taken together. -/
theorem ReadsParts.iff_admits (hA : ReadsParts A) (hobject : ∀ kind ∈ s.kind, kind = .object)
    (hcombined : s.hasCombination = false) (hkeys : (Entries.keys members).Nodup) :
    A s (.object members) ↔
      (∀ c ∈ s.const, Json.equivalent c (.object members) = true) ∧
        (∀ cs ∈ s.enum, ∃ c ∈ cs, Json.equivalent c (.object members) = true) ∧
        (∀ name ∈ s.requiredNames, Entries.has members name = true) ∧ s.object.Hold members ∧
        ∀ e ∈ members, s.Admits A e := by
  rw [hA.members_iff hobject hcombined hkeys]
  refine and_congr_right fun _ => and_congr_right fun _ => ?_
  constructor
  · rintro ⟨⟨hrequired, hcounts, hclosed⟩, hmembers⟩
    exact ⟨hrequired, hcounts, fun e he => ⟨fun hopen => hclosed hopen e he, hmembers e he⟩⟩
  · rintro ⟨hrequired, hcounts, hadmits⟩
    exact ⟨⟨hrequired, hcounts, fun hopen e he => (hadmits e he).1 hopen⟩, fun e he => (hadmits e he).2⟩

/-- A declared member is judged by its property alone. -/
theorem admits_iff_of_declared (hnames : (Entries.keys s.properties).Nodup) {e : String × Json}
    (h : Entries.get? s.properties e.1 = some t) : s.Admits A e ↔ A t e.2 := by
  rw [Admits, governing_of_declared hnames h, isExtra, declares_of_get? h]
  simp

/-- A member that is not declared is judged by the patterns that accept its key; if there is none, by what the
schema says of extra members. -/
theorem admits_iff_of_undeclared {e : String × Json} (h : s.declares e.1 = false) : s.Admits A e ↔
    (∀ p ∈ s.patternProperties, Pattern.accepts p.1 e.1 = true → A p.2 e.2) ∧
      (s.matchesKey e.1 = true ∨
        s.isOpen = true ∧ ∀ t, s.additional = .schema t → A t e.2) := by
  have hextra : s.isExtra e.1 = !s.matchesKey e.1 := by rw [isExtra, h]; rfl
  constructor
  · rintro ⟨hclosed, hgoverning⟩
    refine ⟨fun p hp haccepts =>
      hgoverning p.2 (mem_governing.mpr (.inr (.inl ⟨h, p.1, hp, haccepts⟩))), ?_⟩
    cases hmatches : s.matchesKey e.1 with
    | true => exact .inl rfl
    | false =>
      rw [hmatches, Bool.not_false] at hextra
      refine .inr ⟨?_, fun t ht => hgoverning t (mem_governing.mpr (.inr (.inr ⟨ht, hextra⟩)))⟩
      cases hs : s.isOpen with
      | true => rfl
      | false => exact absurd (hextra.symm.trans (hclosed hs)) (by decide)
  · rintro ⟨hpatterned, hrest⟩
    constructor
    · intro hs
      rcases hrest with hmatches | ⟨hopen, -⟩
      · rw [hextra, hmatches]
        rfl
      · exact absurd (hopen.symm.trans hs) (by decide)
    · intro t ht
      rcases mem_governing.mp ht with hdeclared | ⟨-, source, hp, haccepts⟩ | ⟨hs, hx⟩
      · exact absurd ((declares_of_mem hdeclared).symm.trans h) (by decide)
      · exact hpatterned (source, t) hp haccepts
      · rcases hrest with hmatches | ⟨-, hadditional⟩
        · rw [hextra, hmatches] at hx
          cases hx
        · exact hadditional t hs

end DataSchema.Schema
