import DataSchema.Pattern.Reader
import DataSchema.Proofs.Run

/-!
When the policy of a handle is settled.

A handle works under its own policy, if it has one; else under what its context holds, until the first
attempt to compile fixes that for good. `Session.policies_freeze` says this of every handle in every session
that a run leads to, together with what configuring, cloning and deriving make of the handle.
-/

namespace DataSchema

namespace Handle

variable [Pattern.Engine] {h h' : Handle} {current : Options}

theorem Coherent.exists_fixed (hc : h.Coherent) (hkept : h.single.isSome ∨ h.list.isSome) :
    ∃ o, o ∈ h.fixed := by
  rcases hkept with hsingle | hlist
  · obtain ⟨v, hv⟩ := Option.isSome_iff_exists.mp hsingle
    obtain ⟨o, ho, _⟩ := hc.single v hv
    exact ⟨o, ho⟩
  · obtain ⟨v, hv⟩ := Option.isSome_iff_exists.mp hlist
    obtain ⟨o, ho, _⟩ := hc.list v hv
    exact ⟨o, ho⟩

/-- Both kept validators are compiled under the policy that the handle uses. -/
theorem Coherent.kept (hc : h.Coherent) (current : Options) :
    (∀ v ∈ h.single, Validator.compile h.schema (h.effective current) = .ok v) ∧
      ∀ v ∈ h.list, Validator.compile (listSchema h.schema) (h.effective current) = .ok v := by
  constructor
  · intro v hv
    obtain ⟨o, ho, hcompiled⟩ := hc.single v hv
    rw [effective_of_fixed ho, hcompiled]
  · intro v hv
    obtain ⟨o, ho, hcompiled⟩ := hc.list v hv
    rw [effective_of_fixed ho, hcompiled]

theorem effective_of_unfixed (hfixed : h.fixed = none) (hexplicit : h.explicit = none)
    (current : Options) : h.effective current = current := by
  rw [effective, hfixed, hexplicit, Option.getD_none]

/-- A configured handle uses the changed policy, whatever its context holds. -/
theorem uses_configure (h : Handle) (current : Options) (changes : Overrides) (now : Options) :
    (h.configure current changes).Uses now ((h.effective current).withOverrides changes) :=
  Steady.toCoherent steady_of_unfixed |>.uses rfl

end Handle

namespace Session

section Runs

variable [Pattern.Engine] {s s' : Session} {a : Action} {name : String} {h : Handle} {actions : List Action}

theorem policy_setContext {c : ContextId} (hc : c < s.contexts.length) (policy : Options) :
    (s.setContext c policy).policy c = policy := by
  rw [Session.policy, setContext, List.getElem?_set_self hc, Option.getD_some]

/-- Once a validator is kept, the policy stays over every run in which the name is not given away. -/
theorem uses_of_kept (hs : s.Sound) (hname : s.handle? name = some h)
    (hkept : h.single.isSome ∨ h.list.isSome) (hrun : s.run? actions = some s')
    (hrebinds : ∀ a ∈ actions, ¬ a.Rebinds name) :
    ∃ h', s'.handle? name = some h' ∧ h'.schema = h.schema ∧
      h'.Uses (s'.current h') (h.effective (s.current h)) := by
  obtain ⟨o, ho⟩ := (hs.steady name h hname).exists_fixed hkept
  obtain ⟨h', hname', hcontinues⟩ := exists_continues_run? hs hrun hrebinds hname
  refine ⟨h', hname', hcontinues.schema, ((hs.run? hrun).steady name h' hname').uses ?_⟩
  rw [Handle.effective_of_fixed ho, Handle.effective_of_fixed (hcontinues.fixed o ho)]

/-- After an attempt the handle keeps to the policy that it had then, as long as its name is not given
away. -/
theorem uses_of_attempts (hs : s.Sound) (hname : s.handle? name = some h)
    (hp : s.perform? a = some s') (hattempts : a.Attempts name) {later : List Action} {s'' : Session}
    (hlater : s'.run? later = some s'') (hrebinds : ∀ b ∈ later, ¬ b.Rebinds name) :
    ∃ h'', s''.handle? name = some h'' ∧ h''.schema = h.schema ∧
      ∀ current, h''.Uses current (h.effective (s.current h)) := by
  obtain ⟨h', rfl, hattempted, _⟩ :=
    exists_attempted hp hattempts hname (hs.steady name h hname).toCoherent
  have hs' := hs.perform? hp
  obtain ⟨h'', hname'', hcontinues⟩ :=
    exists_continues_run? hs' hlater hrebinds (handle?_putHandle_self ..)
  have hsteady := (hs'.run? hlater).steady name h'' hname''
  have hfixed := hcontinues.fixed _ hattempted.fixed
  exact ⟨h'', hname'', hcontinues.schema.trans hattempted.schema,
    fun current => hsteady.uses (Handle.effective_of_fixed hfixed current)⟩

/-- In every session that a run leads to, of every handle: its kept validators are compiled from its schema
under the policy it uses; once there is one, only giving its name away ends that policy, and from the first
attempt to compile on, whatever came of it, that is so too; a policy of its own is used whatever its context
holds; without one, and without an attempt to compile, it uses what its context holds last; configuring it
gives a handle without validators that uses the changed policy; a clone and what is derived have its own
policy and its context, and leave it as it is. -/
theorem policies_freeze (hrun : run? {} actions = some s) (hname : s.handle? name = some h) :
    ((∀ v ∈ h.single, Validator.compile h.schema (h.effective (s.current h)) = .ok v) ∧
        ∀ v ∈ h.list,
          Validator.compile (Handle.listSchema h.schema) (h.effective (s.current h)) = .ok v) ∧
      (h.single.isSome ∨ h.list.isSome → ∀ later s', s.run? later = some s' →
        (∀ a ∈ later, ¬ a.Rebinds name) → ∃ h', s'.handle? name = some h' ∧
          h'.schema = h.schema ∧ h'.Uses (s'.current h') (h.effective (s.current h))) ∧
      (∀ a s', a.Attempts name → s.perform? a = some s' → ∀ later s'', s'.run? later = some s'' →
        (∀ b ∈ later, ¬ b.Rebinds name) → ∃ h', s''.handle? name = some h' ∧ h'.schema = h.schema ∧
          ∀ current, h'.Uses current (h.effective (s.current h))) ∧
      (∀ o ∈ h.explicit, ∀ current, h.Uses current o) ∧
      (h.explicit = none → Untried name actions → h.Uses (s.current h) (s.policy h.context) ∧
        ∀ policy, h.Uses ((s.setContext h.context policy).current h) policy) ∧
      (∀ changes target, ∃ s' h', s.perform? (.configure name changes target) = some s' ∧
        s'.handle? target = some h' ∧ h'.schema = h.schema ∧ h'.single = none ∧ h'.list = none ∧
          ∀ current, h'.Uses current ((h.effective (s.current h)).withOverrides changes)) ∧
      (∀ target, target ≠ name → ∃ s', s.perform? (.clone name target) = some s' ∧
        s'.handle? name = some h ∧ s'.handle? target =
          some { schema := h.schema, context := h.context, explicit := h.explicit }) ∧
      ∀ schema target, target ≠ name →
        ∃ s', s.perform? (.derive name (.ok schema) target) = some s' ∧
          s'.handle? name = some h ∧ s'.handle? target =
            some { schema := schema, context := h.context, explicit := h.explicit } := by
  have hs := sound_run? hrun
  have hsteady := hs.steady name h hname
  refine ⟨hsteady.kept _, ?_, ?_, ?_, ?_, ?_, ?_, ?_⟩
  · intro hkept later s' hlater hrebinds
    exact uses_of_kept hs hname hkept hlater hrebinds
  · intro a s' hattempts hp later s'' hlater hrebinds
    exact uses_of_attempts hs hname hp hattempts hlater hrebinds
  · intro o ho current
    exact hsteady.uses (hsteady.effective_eq ho current)
  · intro hexplicit hu
    have hfollows := Handle.effective_of_unfixed (fixed_of_untried hrun hu hname) hexplicit
    refine ⟨hsteady.uses (hfollows _), fun policy => hsteady.uses ?_⟩
    rw [hfollows, current, policy_setContext (hs.follows name h hname)]
  · intro changes target
    refine ⟨_, h.configure (s.current h) changes, congrArg (Option.map _) hname,
      handle?_putHandle_self .., rfl, rfl, rfl, ?_⟩
    exact h.uses_configure (s.current h) changes
  · intro target htarget
    refine ⟨_, congrArg (Option.map _) hname, ?_, handle?_putHandle_self ..⟩
    exact (handle?_putHandle_of_ne _ _ htarget).trans hname
  · intro schema target htarget
    refine ⟨_, congrArg (Option.map _) hname, ?_, handle?_putHandle_self ..⟩
    exact (handle?_putHandle_of_ne _ _ htarget).trans hname

end Runs

/-- A number for a port that was tried once. -/
def portTried : List Action :=
  [.addSchema "port" (.ofKind .integer) "global", .validate "port" (.string "80")]

/-- From then on the common context converts. -/
def portLater : List Action :=
  [.updateContext "global" { coerceTypes := some true }, .validateList "port" [.string "80"]]

/-- The port still takes no text after the common context has begun to convert. -/
theorem policies_freeze_port :
    ∃ s h, run? {} portTried = some s ∧ s.handle? "port" = some h ∧ h.single.isSome ∧
      ∃ s' h', s.run? portLater = some s' ∧ s'.handle? "port" = some h' ∧
        (s'.policy 0).coerceTypes = true ∧ h'.Uses (s'.current h') {} := by
  have hrun : run? {} portTried = some _ := rfl
  have hrebinds : ∀ a ∈ portLater, ¬ a.Rebinds "port" := by simp [portLater, Action.Rebinds]
  obtain ⟨h', hname', _, huses⟩ :=
    (@policies_freeze _ _ "port" _ _ hrun rfl).2.1 (.inl rfl) portLater _ rfl hrebinds
  exact ⟨_, _, hrun, rfl, rfl, _, h', rfl, hname', rfl, huses⟩

end Session

end DataSchema
