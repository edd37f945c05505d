import DataSchema.Pattern.Reader
import DataSchema.Proofs.Freezing
import Mathlib.Data.List.Induction

/-!
What the first attempt to compile leaves of a handle.

A handle without a policy of its own follows its context until the first attempt to compile it, and no
further: the attempt fixes the policy before it is known whether the schema passes the check. So a handle
whose schema was refused stays refused, also after its context has become more lenient.
`Session.follows_iff_untried` says both.
-/

namespace DataSchema.Session

variable {a : Action} {name : String} {actions : List Action}

theorem Untried.of_rebinds (before : List Action) (hrebinds : a.Rebinds name) :
    Untried name (before ++ [a]) :=
  ⟨before, a, [], rfl, hrebinds, fun _ hb => absurd hb List.not_mem_nil⟩

/-- What leaves the handle alone leaves it untried. -/
theorem Untried.concat (hu : Untried name actions) (hrebinds : ¬ a.Rebinds name)
    (hattempts : ¬ a.Attempts name) : Untried name (actions ++ [a]) := by
  obtain ⟨before, made, after, rfl, hmade, hquiet⟩ := hu
  refine ⟨before, made, after ++ [a], by simp, hmade, ?_⟩
  rw [List.forall_mem_append, List.forall_mem_singleton]
  exact ⟨hquiet, hrebinds, hattempts⟩

section Runs

variable [Pattern.Engine] {s : Session} {h : Handle}

/-- A handle under a name is untried, or its policy is fixed. -/
theorem untried_or_fixed (hrun : run? {} actions = some s) (hname : s.handle? name = some h) :
    Untried name actions ∨ ∃ o, o ∈ h.fixed := by
  induction actions using List.reverseRecOn generalizing s h with
  | nil =>
    cases hrun
    cases hname
  | append_singleton earlier a ih =>
    rw [run?_append] at hrun
    obtain ⟨r, hearlier, hlast⟩ := Option.bind_eq_some_iff.mp hrun
    obtain ⟨t, hp, hdone⟩ := Option.bind_eq_some_iff.mp hlast
    cases hdone
    by_cases hrebinds : a.Rebinds name
    · exact .inl (.of_rebinds earlier hrebinds)
    by_cases hattempts : a.Attempts name
    · -- whatever came of the attempt, the policy is fixed now
      obtain ⟨g, hg, _⟩ := eq_putHandle_of_attempts hp hattempts
      obtain ⟨g', rfl, hattempted, _⟩ := exists_attempted hp hattempts hg
        ((sound_run? hearlier).steady name g hg).toCoherent
      rw [handle?_putHandle_self] at hname
      cases hname
      exact .inr ⟨_, hattempted.fixed⟩
    · rw [handle?_perform? hp hrebinds hattempts] at hname
      exact (ih hearlier hname).imp_left fun hu => hu.concat hrebinds hattempts

/-- A handle without a policy of its own follows its context, whatever that comes to hold, exactly if
there was no attempt to compile it; and from any attempt on, one that fails too, it keeps to the policy
that it had then. -/
theorem follows_iff_untried (hrun : run? {} actions = some s) (hname : s.handle? name = some h)
    (hexplicit : h.explicit = none) :
    ((∀ policy, h.Uses policy policy) ↔ Untried name actions) ∧
      ∀ a s', a.Attempts name → s.perform? a = some s' → ∀ later s'', s'.run? later = some s'' →
        (∀ b ∈ later, ¬ b.Rebinds name) → ∃ h'', s''.handle? name = some h'' ∧
          h''.schema = h.schema ∧ ∀ current, h''.Uses current (h.effective (s.current h)) := by
  have hs := sound_run? hrun
  have hsteady := hs.steady name h hname
  refine ⟨⟨fun hfollows => ?_, fun hu policy => ?_⟩, ?_⟩
  · refine (untried_or_fixed hrun hname).resolve_right ?_
    rintro ⟨o, ho⟩
    -- a fixed policy cannot be both strict and not
    have hsame : ∀ policy, o = policy := fun policy =>
      (Handle.effective_of_fixed ho policy).symm.trans (hfollows policy).effective
    have hstrict : ({ strict := true } : Options) = {} := (hsame _).symm.trans (hsame _)
    cases hstrict
  · have hfixed := fixed_of_untried hrun hu hname
    exact hsteady.uses (Handle.effective_of_unfixed hfixed hexplicit policy)
  · intro a s' hattempts hp later s'' hlater hrebinds
    exact uses_of_attempts hs hname hp hattempts hlater hrebinds

end Runs

/-- A text of a format that is not known, tried under a strict context, which then becomes lenient. -/
def refusedOnce : List Action :=
  [.addContext "strict" { strict := true },
    .addSchema "color" { kind := some .string, text := { format := some "color" } } "strict",
    .validate "color" (.string "red"), .resetContext "strict"]

/-- The handle that was refused once keeps no validator, and is refused for good. -/
theorem follows_refusedOnce :
    ∃ s h, run? {} (refusedOnce.take 2) = some s ∧ s.handle? "color" = some h ∧ h.explicit = none ∧
      ∃ s'' h'', run? {} refusedOnce = some s'' ∧ s''.handle? "color" = some h'' ∧
        h''.single = none ∧ h''.list = none ∧ s''.current h'' = {} ∧
        h''.Uses (s''.current h'') { strict := true } := by
  have hrun : run? {} (refusedOnce.take 2) = some _ := rfl
  have hlater : ∀ b ∈ refusedOnce.drop 3, ¬ b.Rebinds "color" := by
    simp [refusedOnce, Action.Rebinds]
  obtain ⟨h'', hname'', _, huses⟩ := (@follows_iff_untried "color" _ _ _ _ hrun rfl rfl).2
    (.validate "color" (.string "red")) _ rfl rfl (refusedOnce.drop 3) _ rfl hlater
  cases hname''
  exact ⟨_, _, hrun, rfl, rfl, _, _, rfl, rfl, rfl, rfl, rfl, huses _⟩

/-- A handle without a policy of its own that keeps no validator need not follow its context. -/
theorem refused_not_follows :
    ¬ ∀ actions s name h, run? {} actions = some s → s.handle? name = some h → h.explicit = none →
      h.single = none → h.list = none → h.Uses (s.current h) (s.policy h.context) := by
  intro hall
  have huses := hall refusedOnce _ "color" _ rfl rfl rfl rfl rfl
  cases huses.effective

end DataSchema.Session
