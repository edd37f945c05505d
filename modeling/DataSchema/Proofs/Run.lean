import DataSchema.Proofs.Handle
import DataSchema.Schema.Error
import DataSchema.Validation.Session

/-!
What can be done in a session, and what a run leaves of a handle.

A run is a list of actions, each done by name. A name stands for one handle until an action puts another
one under it. Meanwhile only an attempt to compile changes the handle (`Session.handle?_perform?`), and it
does no more than fix the policy and keep a validator (`Handle.Attempted`).
-/

namespace DataSchema

variable [Pattern.Engine]

namespace Session

/-! ### Actions -/

/-- What can be done in a session. Validating one value stands for all ways of doing so, whatever is done
with the verdict and the value. Deriving comes with what the transformation of the schema gave. -/
inductive Action where
  | addContext (name : String) (policy : Options)
  | shareContext (name target : String)
  | setContext (name : String) (policy : Options)
  | updateContext (name : String) (changes : Overrides)
  | resetContext (name : String)
  | addSchema (name : String) (schema : Schema) (context : String)
  | configure (name : String) (changes : Overrides) (target : String)
  | clone (name target : String)
  | derive (name : String) (transformed : Except ReshapeError Schema) (target : String)
  | validate (name : String) (value : Json)
  | validateList (name : String) (values : List Json)
  | parse (α : Type) [Typed α] (name : String) (value : Json)
  | drop (name : String)

/-- The session after an action. An action on a name that stands for nothing cannot be done. Nothing is
derived where the schema could not be transformed. -/
def perform? (s : Session) : Action → Option Session
  | .addContext name policy => some (s.addContext name policy)
  | .shareContext name target => (s.context? name).map fun c => s.shareContext c target
  | .setContext name policy => (s.context? name).map fun c => s.setContext c policy
  | .updateContext name changes => (s.context? name).map fun c => s.updateContext c changes
  | .resetContext name => (s.context? name).map fun c => s.resetContext c
  | .addSchema name schema context => (s.context? context).map fun c => s.addSchema name schema c
  | .configure name changes target =>
    (s.handle? name).map fun h => s.configure name h changes target
  | .clone name target => (s.handle? name).map fun h => s.putHandle target h.clone
  | .derive name (.ok schema) target =>
    (s.handle? name).map fun h => s.putHandle target (h.derive schema)
  | .derive name (.error _) _ => (s.handle? name).map fun _ => s
  | .validate name value => (s.handle? name).map fun h => (s.validate name h value).1
  | .validateList name values => (s.handle? name).map fun h => (s.validateList name h values).1
  | @Action.parse α _ name value => (s.handle? name).map fun h => (s.parse α name h value).1
  | .drop name => (s.handle? name).map fun _ => s.dropHandle name

/-- The session after the actions in turn. -/
def run? (s : Session) (actions : List Action) : Option Session := actions.foldlM perform? s

namespace Action

/-- The action puts another handle under the name, or takes away the one that is there. -/
def Rebinds (name : String) : Action → Prop
  | .addSchema target _ _ => target = name
  | .configure source _ target => source = name ∨ target = name
  | .clone _ target => target = name
  | .derive _ (.ok _) target => target = name
  | .drop target => target = name
  | _ => False

/-- The action may compile a validator for the handle under the name. -/
def Attempts (name : String) : Action → Prop
  | .validate target _ => target = name
  | .validateList target _ => target = name
  | @Action.parse _ _ target _ => target = name
  | _ => False

end Action

variable {s s' : Session} {a : Action} {name : String} {h h' : Handle} {actions : List Action}

theorem run?_append (s : Session) (first second : List Action) :
    s.run? (first ++ second) = (s.run? first).bind (·.run? second) := List.foldlM_append

/-! ### One action and one handle -/

theorem handle?_putHandle (s : Session) (target : String) (h : Handle) (name : String) :
    (s.putHandle target h).handle? name = if target = name then some h else s.handle? name :=
  Entries.get?_put s.handles target h name

theorem handle?_putHandle_self (s : Session) (name : String) (h : Handle) :
    (s.putHandle name h).handle? name = some h := by
  rw [handle?_putHandle, if_pos rfl]

theorem handle?_putHandle_of_ne (s : Session) (h : Handle) {target name : String}
    (hne : target ≠ name) : (s.putHandle target h).handle? name = s.handle? name := by
  rw [handle?_putHandle, if_neg hne]

theorem handle?_dropHandle (s : Session) {target name : String} (hne : name ≠ target) :
    (s.dropHandle target).handle? name = s.handle? name := Entries.get?_erase_of_ne s.handles hne

/-- What holds of all handles still does, if it holds of the one that is put. -/
theorem forall_putHandle {p : Handle → Prop} (hall : ∀ name, ∀ h ∈ s.handle? name, p h)
    (target : String) (hput : p h) : ∀ name, ∀ h' ∈ (s.putHandle target h).handle? name, p h' := by
  intro name h' hname
  rw [handle?_putHandle] at hname
  split at hname
  · cases hname
    exact hput
  · exact hall name h' hname

/-- Without an attempt to compile, the handle under a name that is not given away stays as it is. -/
theorem handle?_perform? (hs : s.perform? a = some s') (hrebinds : ¬ a.Rebinds name)
    (hattempts : ¬ a.Attempts name) : s'.handle? name = s.handle? name := by
  cases a with
  | addContext =>
    cases hs
    rfl
  | shareContext | setContext | updateContext | resetContext =>
    obtain ⟨c, _, rfl⟩ := Option.map_eq_some_iff.mp hs
    rfl
  | addSchema target schema context =>
    obtain ⟨c, _, rfl⟩ := Option.map_eq_some_iff.mp hs
    exact handle?_putHandle_of_ne _ _ hrebinds
  | configure source changes target =>
    obtain ⟨h, _, rfl⟩ := Option.map_eq_some_iff.mp hs
    obtain ⟨hsource, htarget⟩ := not_or.mp hrebinds
    rw [configure, handle?_putHandle_of_ne _ _ htarget, handle?_dropHandle _ (Ne.symm hsource)]
  | clone source target =>
    obtain ⟨h, _, rfl⟩ := Option.map_eq_some_iff.mp hs
    exact handle?_putHandle_of_ne _ _ hrebinds
  | derive source transformed target =>
    cases transformed with
    | ok schema =>
      obtain ⟨h, _, rfl⟩ := Option.map_eq_some_iff.mp hs
      exact handle?_putHandle_of_ne _ _ hrebinds
    | error e =>
      obtain ⟨h, _, rfl⟩ := Option.map_eq_some_iff.mp hs
      rfl
  | validate | validateList | parse =>
    obtain ⟨h, _, rfl⟩ := Option.map_eq_some_iff.mp hs
    exact handle?_putHandle_of_ne _ _ hattempts
  | drop target =>
    obtain ⟨h, _, rfl⟩ := Option.map_eq_some_iff.mp hs
    exact handle?_dropHandle _ (Ne.symm hrebinds)

theorem validate_fst (s : Session) (name : String) (h : Handle) (value : Json) :
    (s.validate name h value).1 = s.putHandle name (h.withSingle (s.current h)).1 := by
  rw [← Handle.validate_fst h (s.current h) value]
  rfl

theorem validateList_fst (s : Session) (name : String) (h : Handle) (values : List Json) :
    (s.validateList name h values).1 = s.putHandle name (h.withList (s.current h)).1 := by
  rw [← Handle.validateList_fst h (s.current h) values]
  rfl

theorem parse_fst (α : Type) [Typed α] (s : Session) (name : String) (h : Handle) (value : Json) :
    (s.parse α name h value).1 = s.putHandle name (h.withSingle (s.current h)).1 := by
  rw [← Handle.validate_fst h (s.current h) value, ← Handle.parse_fst h (s.current h) α value]
  rfl

/-- An attempt puts back the handle with its validator for single values or for lists. -/
theorem eq_putHandle_of_attempts (hs : s.perform? a = some s') (hattempts : a.Attempts name) :
    ∃ h, s.handle? name = some h ∧ (s' = s.putHandle name (h.withSingle (s.current h)).1 ∨
      s' = s.putHandle name (h.withList (s.current h)).1) := by
  cases a with
  | validate target value =>
    obtain rfl : target = name := hattempts
    obtain ⟨h, hh, rfl⟩ := Option.map_eq_some_iff.mp hs
    exact ⟨h, hh, .inl (validate_fst ..)⟩
  | validateList target values =>
    obtain rfl : target = name := hattempts
    obtain ⟨h, hh, rfl⟩ := Option.map_eq_some_iff.mp hs
    exact ⟨h, hh, .inr (validateList_fst ..)⟩
  | parse α target value =>
    obtain rfl : target = name := hattempts
    obtain ⟨h, hh, rfl⟩ := Option.map_eq_some_iff.mp hs
    exact ⟨h, hh, .inl (parse_fst ..)⟩
  | _ => cases hattempts

theorem exists_attempted (hs : s.perform? a = some s') (hattempts : a.Attempts name)
    (hname : s.handle? name = some h) (hc : h.Coherent) :
    ∃ h', s' = s.putHandle name h' ∧ h.Attempted (s.current h) h' ∧ h'.Coherent := by
  obtain ⟨h, hh, rfl | rfl⟩ := eq_putHandle_of_attempts hs hattempts <;> cases hh.symm.trans hname
  · exact ⟨_, rfl, Handle.attempted_withSingle hc _, hc.withSingle _⟩
  · exact ⟨_, rfl, Handle.attempted_withList hc _, hc.withList _⟩

/-- Whatever is done while a name is not given away, the handle under it goes on. -/
theorem exists_continues (hs : s.perform? a = some s') (hrebinds : ¬ a.Rebinds name)
    (hname : s.handle? name = some h) (hc : h.Coherent) :
    ∃ h', s'.handle? name = some h' ∧ h.Continues h' := by
  by_cases hattempts : a.Attempts name
  · obtain ⟨h', rfl, hattempted, _⟩ := exists_attempted hs hattempts hname hc
    exact ⟨h', handle?_putHandle_self .., hattempted.continues⟩
  · exact ⟨h, (handle?_perform? hs hrebinds hattempts).trans hname, .refl h⟩

/-! ### Sound sessions -/

/-- Names and handles refer to contexts that there are, no name is there twice, and every handle is
steady. -/
structure Sound (s : Session) : Prop where
  contexts : ∀ name, ∀ c ∈ s.context? name, c < s.contexts.length
  names : (Entries.keys s.handles).Nodup
  follows : ∀ name, ∀ h ∈ s.handle? name, h.context < s.contexts.length
  steady : ∀ name, ∀ h ∈ s.handle? name, h.Steady

theorem sound_init : Sound {} where
  contexts name c hc := by
    have hglobal : c = 0 := by
      rw [context?, Entries.get?_cons] at hc
      split at hc
      · exact (Option.some.inj hc).symm
      · cases hc
    rw [hglobal]
    exact Nat.zero_lt_one
  names := List.nodup_nil
  follows name h hname := nomatch (show none = some h from hname)
  steady name h hname := nomatch (show none = some h from hname)

namespace Sound

theorem putHandle (hs : s.Sound) (target : String) (hfollows : h.context < s.contexts.length)
    (hsteady : h.Steady) : (s.putHandle target h).Sound where
  contexts := hs.contexts
  names := Entries.nodup_keys_put hs.names target h
  follows := forall_putHandle hs.follows target hfollows
  steady := forall_putHandle hs.steady target hsteady

theorem dropHandle (hs : s.Sound) (target : String) : (s.dropHandle target).Sound := by
  have hrest : ∀ name, ∀ h ∈ (s.dropHandle target).handle? name, h ∈ s.handle? name := by
    intro name h hname
    by_cases htarget : name = target
    · subst htarget
      exact absurd ((Entries.get?_erase hs.names name).symm.trans hname) nofun
    · exact (handle?_dropHandle s htarget).symm.trans hname
  exact ⟨hs.contexts, Entries.nodup_keys_erase hs.names target,
    fun name h hname => hs.follows name h (hrest name h hname),
    fun name h hname => hs.steady name h (hrest name h hname)⟩

theorem setContext (hs : s.Sound) (c : ContextId) (policy : Options) :
    (s.setContext c policy).Sound where
  contexts name c' hc' := by
    rw [Session.setContext, List.length_set]
    exact hs.contexts name c' hc'
  names := hs.names
  follows name h hname := by
    rw [Session.setContext, List.length_set]
    exact hs.follows name h hname
  steady := hs.steady

theorem shareContext (hs : s.Sound) {c : ContextId} (hc : c < s.contexts.length) (target : String) :
    (s.shareContext c target).Sound where
  contexts name c' hc' := by
    rw [context?, Session.shareContext, Entries.get?_put] at hc'
    split at hc'
    · cases hc'
      exact hc
    · exact hs.contexts name c' hc'
  names := hs.names
  follows := hs.follows
  steady := hs.steady

theorem addContext (hs : s.Sound) (target : String) (policy : Options) :
    (s.addContext target policy).Sound := by
  have hlength : (s.addContext target policy).contexts.length = s.contexts.length + 1 :=
    List.length_append
  refine ⟨?_, hs.names, ?_, hs.steady⟩
  · intro name c hc
    rw [context?, Session.addContext, Entries.get?_put] at hc
    split at hc
    · cases hc
      exact hlength ▸ Nat.lt_succ_self _
    · exact hlength ▸ Nat.lt_succ_of_lt (hs.contexts name c hc)
  · intro name h hname
    exact hlength ▸ Nat.lt_succ_of_lt (hs.follows name h hname)

theorem attempted (hs : s.Sound) (hp : s.perform? a = some s') (hattempts : a.Attempts name) :
    s'.Sound := by
  obtain ⟨h, hname, _⟩ := eq_putHandle_of_attempts hp hattempts
  have hsteady := hs.steady name h hname
  obtain ⟨h', rfl, hattempted, hc⟩ := exists_attempted hp hattempts hname hsteady.toCoherent
  exact hs.putHandle name (hattempted.context ▸ hs.follows name h hname)
    (hsteady.attempted hattempted hc)

theorem perform? (hs : s.Sound) (hp : s.perform? a = some s') : s'.Sound := by
  cases a with
  | addContext target policy =>
    cases hp
    exact hs.addContext target policy
  | shareContext name target =>
    obtain ⟨c, hc, rfl⟩ := Option.map_eq_some_iff.mp hp
    exact hs.shareContext (hs.contexts name c hc) target
  | setContext | updateContext | resetContext =>
    obtain ⟨c, _, rfl⟩ := Option.map_eq_some_iff.mp hp
    exact hs.setContext c _
  | addSchema target schema context =>
    obtain ⟨c, hc, rfl⟩ := Option.map_eq_some_iff.mp hp
    exact hs.putHandle target (hs.contexts context c hc) Handle.steady_of_unfixed
  | configure source changes target =>
    obtain ⟨h, hh, rfl⟩ := Option.map_eq_some_iff.mp hp
    exact (hs.dropHandle source).putHandle target (hs.follows source h hh) Handle.steady_of_unfixed
  | clone source target =>
    obtain ⟨h, hh, rfl⟩ := Option.map_eq_some_iff.mp hp
    exact hs.putHandle target (hs.follows source h hh) Handle.steady_of_unfixed
  | derive source transformed target =>
    cases transformed with
    | ok schema =>
      obtain ⟨h, hh, rfl⟩ := Option.map_eq_some_iff.mp hp
      exact hs.putHandle target (hs.follows source h hh) Handle.steady_of_unfixed
    | error e =>
      obtain ⟨h, _, rfl⟩ := Option.map_eq_some_iff.mp hp
      exact hs
  | validate | validateList | parse => exact hs.attempted hp rfl
  | drop target =>
    obtain ⟨h, _, rfl⟩ := Option.map_eq_some_iff.mp hp
    exact hs.dropHandle target

end Sound

/-! ### Runs -/

theorem Sound.run? (hs : s.Sound) (hrun : s.run? actions = some s') : s'.Sound := by
  induction actions generalizing s with
  | nil =>
    cases hrun
    exact hs
  | cons a rest ih =>
    obtain ⟨next, hp, hrest⟩ := Option.bind_eq_some_iff.mp hrun
    exact ih (hs.perform? hp) hrest

/-- The sessions that runs lead to are sound. -/
theorem sound_run? (hrun : run? {} actions = some s) : s.Sound := sound_init.run? hrun

/-- Over a run in which a name is not given away, the handle under it goes on. -/
theorem exists_continues_run? (hs : s.Sound) (hrun : s.run? actions = some s')
    (hrebinds : ∀ a ∈ actions, ¬ a.Rebinds name) (hname : s.handle? name = some h) :
    ∃ h', s'.handle? name = some h' ∧ h.Continues h' := by
  induction actions generalizing s h with
  | nil =>
    cases hrun
    exact ⟨h, hname, .refl h⟩
  | cons a rest ih =>
    obtain ⟨next, hp, hrest⟩ := Option.bind_eq_some_iff.mp hrun
    rw [List.forall_mem_cons] at hrebinds
    obtain ⟨h₁, hname₁, hfirst⟩ :=
      exists_continues hp hrebinds.1 hname (hs.steady name h hname).toCoherent
    obtain ⟨h₂, hname₂, hsecond⟩ := ih (hs.perform? hp) hrest hrebinds.2 hname₁
    exact ⟨h₂, hname₂, hfirst.trans hsecond⟩

theorem handle?_run? (hrun : s.run? actions = some s')
    (hquiet : ∀ a ∈ actions, ¬ a.Rebinds name ∧ ¬ a.Attempts name) :
    s'.handle? name = s.handle? name := by
  induction actions generalizing s with
  | nil =>
    cases hrun
    rfl
  | cons a rest ih =>
    obtain ⟨next, hp, hrest⟩ := Option.bind_eq_some_iff.mp hrun
    rw [List.forall_mem_cons] at hquiet
    rw [ih hrest hquiet.2, handle?_perform? hp hquiet.1.1 hquiet.1.2]

/-! ### Handles without an attempt -/

/-- A handle that has just come under a name has no fixed policy. -/
theorem fixed_of_rebinds (hs : s.Sound) (hp : s.perform? a = some s') (hrebinds : a.Rebinds name)
    (hname : s'.handle? name = some h) : h.fixed = none := by
  have hdropped : ∀ target, (s.dropHandle target).handle? target = none :=
    Entries.get?_erase hs.names
  cases a with
  | addSchema target schema context =>
    obtain rfl : target = name := hrebinds
    obtain ⟨c, _, rfl⟩ := Option.map_eq_some_iff.mp hp
    rw [addSchema, handle?_putHandle_self] at hname
    cases hname
    rfl
  | configure source changes target =>
    obtain ⟨h, _, rfl⟩ := Option.map_eq_some_iff.mp hp
    rw [configure, handle?_putHandle] at hname
    split at hname
    · cases hname
      rfl
    · next htarget =>
      obtain rfl : source = name := hrebinds.resolve_right htarget
      rw [hdropped] at hname
      cases hname
  | clone source target =>
    obtain rfl : target = name := hrebinds
    obtain ⟨h, _, rfl⟩ := Option.map_eq_some_iff.mp hp
    rw [handle?_putHandle_self] at hname
    cases hname
    rfl
  | derive source transformed target =>
    cases transformed with
    | ok schema =>
      obtain rfl : target = name := hrebinds
      obtain ⟨h, _, rfl⟩ := Option.map_eq_some_iff.mp hp
      rw [handle?_putHandle_self] at hname
      cases hname
      rfl
    | error e => cases hrebinds
  | drop target =>
    obtain rfl : target = name := hrebinds
    obtain ⟨h, _, rfl⟩ := Option.map_eq_some_iff.mp hp
    rw [hdropped] at hname
    cases hname
  | _ => cases hrebinds

/-- Since the last handle came under the name, there was no attempt to compile it. -/
def Untried (name : String) (actions : List Action) : Prop :=
  ∃ before made after, actions = before ++ made :: after ∧ made.Rebinds name ∧
    ∀ a ∈ after, ¬ a.Rebinds name ∧ ¬ a.Attempts name

theorem fixed_of_untried (hrun : run? {} actions = some s) (hu : Untried name actions)
    (hname : s.handle? name = some h) : h.fixed = none := by
  obtain ⟨before, made, after, rfl, hmade, hquiet⟩ := hu
  rw [run?_append] at hrun
  obtain ⟨first, hbefore, hrun⟩ := Option.bind_eq_some_iff.mp hrun
  obtain ⟨second, hp, hafter⟩ := Option.bind_eq_some_iff.mp hrun
  rw [handle?_run? hafter hquiet] at hname
  exact fixed_of_rebinds (sound_run? hbefore) hp hmade hname

end Session

end DataSchema
