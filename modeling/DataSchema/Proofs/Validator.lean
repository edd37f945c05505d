import DataSchema.Proofs.Outcome
import DataSchema.Validation.Validator

/-!
Validators and their reports.

A schema compiles exactly if it passes the check, which looks at the policy only for its strictness. A
report says whether anything was found, also when it is cut to the first finding.
-/

namespace DataSchema

namespace Report

variable {α : Type}

theorem passes_iff (r : Report α) : r.passes = true ↔ r.issues = [] := List.isEmpty_iff

/-- A report has no issue exactly if nothing was found, also when it is cut to the first finding. -/
theorem issues_ofOutcome_eq_nil (o : Options) (x : Outcome α) :
    (ofOutcome o x).issues = [] ↔ x.passes = true := by
  rw [ofOutcome, List.map_eq_nil_iff, Outcome.passes_iff]
  cases o.allErrors with
  | true => rfl
  | false => simp [List.take_eq_nil_iff]

/-- Every issue reports a finding. -/
theorem exists_finding {o : Options} {x : Outcome α} {issue : Issue}
    (h : issue ∈ (ofOutcome o x).issues) : ∃ f ∈ x.findings, f.toIssue = issue := by
  rw [ofOutcome, List.mem_map] at h
  obtain ⟨f, hf, rfl⟩ := h
  refine ⟨f, ?_, rfl⟩
  split at hf
  · exact hf
  · exact List.mem_of_mem_take hf

@[simp] theorem passes_ofOutcome (o : Options) (x : Outcome α) :
    (ofOutcome o x).passes = x.passes := by
  rw [Bool.eq_iff_iff, passes_iff, issues_ofOutcome_eq_nil]

theorem ofRun?_eq_some {o : Options} {x : Run α} {r : Report α} :
    ofRun? o x = some r ↔ x.breaksOff = false ∧ ofOutcome o x.toOutcome = r := by
  rw [ofRun?]
  cases x.breaksOff <;> simp

end Report

variable [Pattern.Engine]

namespace Validator

section Results

variable {v : Validator}

/-- A run has a report exactly if it does not break off. -/
theorem validate?_eq_some {value : Json} {r : Report Json} :
    v.validate? value = some r ↔ v.breaksOff value = false ∧ v.validate value = r :=
  Report.ofRun?_eq_some

theorem validateList?_eq_some {values : List Json} {r : Report (List Json)} :
    v.validateList? values = some r ↔ v.listBreaksOff values = false ∧ v.validateList values = r :=
  Report.ofRun?_eq_some

/-- The run comes to its end and finds nothing. -/
def Passes (v : Validator) (value : Json) : Prop :=
  ∃ r, v.validate? value = some r ∧ r.issues = []

theorem passes_iff {value : Json} :
    v.Passes value ↔ v.breaksOff value = false ∧ (v.validate value).issues = [] := by
  simp only [Passes, validate?_eq_some]
  exact ⟨fun ⟨_, ⟨hend, hr⟩, hissues⟩ => ⟨hend, hr ▸ hissues⟩,
    fun ⟨hend, hissues⟩ => ⟨_, ⟨hend, rfl⟩, hissues⟩⟩

end Results

theorem compile_eq_ok {s : Schema} {o : Options} {v : Validator} (h : compile s o = .ok v) :
    v.schema = s ∧ v.options = o := by
  rw [compile] at h
  split at h
  · cases h; exact ⟨rfl, rfl⟩
  · cases h

theorem check_of_compile {s : Schema} {o : Options} {v : Validator} (h : compile s o = .ok v) :
    s.check o.strict = .ok () := by
  obtain ⟨rfl, rfl⟩ := compile_eq_ok h
  exact v.checked

theorem compile_of_check {s : Schema} {o : Options} (h : s.check o.strict = .ok ()) :
    compile s o = .ok ⟨s, o, h⟩ := by
  rw [compile]
  split
  · rfl
  · next e he => exact absurd (h.symm.trans he) (by simp)

end Validator

end DataSchema
