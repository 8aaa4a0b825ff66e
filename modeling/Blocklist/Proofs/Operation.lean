import Blocklist.Override.Manager
import Blocklist.Proofs.Restore

set_option autoImplicit false

/-! # Runs of operations

A `Step` is an operation of the manager with the time and the faults it meets; `runAll` carries out
steps one after another on one environment. What every step keeps holds after all of them
(`exists_runAll`). The rules for the single operations reduce them to the cases in which toggles and
restorations end. -/

namespace Blocklist.Override

/-! ## Rules for operations -/

section

variable {regime : Regime} {halted : World → Prop} {w : World} {manager : Manager}

/-- A manager starts without a remembered status. -/
theorem Manager.new_eq_ok {config : Config} (hvalid : config.fault? = none) :
    Manager.new config = .ok ⟨config, .new config.statusTtl.toNat⟩ := by
  rw [Manager.new, hvalid]

/-- Only an input that names no domain has none. -/
theorem eq_of_domainOf_eq_error {input : String} {e : OverrideError}
    (h : Manager.domainOf input = .error e) : e = .invalidDomain input := by
  unfold Manager.domainOf at h
  split at h
  · cases h
  · cases h
    rfl

theorem setDomainBlocking_of_ok {input domain : String}
    (hdomain : Manager.domainOf input = .ok domain) (blocked : Bool) :
    manager.setDomainBlocking input blocked = do
      let result ← (toggle manager.config domain blocked).run
      return (result, manager.forget) := by
  unfold Manager.setDomainBlocking
  rw [hdomain]

theorem setDomainBlocking_of_error {input : String} {e : OverrideError}
    (hdomain : Manager.domainOf input = .error e) (blocked : Bool) :
    manager.setDomainBlocking input blocked = pure (.error e, manager) := by
  unfold Manager.setDomainBlocking
  rw [hdomain]

theorem guarantees_setDomainBlocking {input domain : String} {blocked : Bool}
    (hdomain : Manager.domainOf input = .ok domain)
    {post : Except OverrideError Transition × Manager → World → Prop} :
    Guarantees regime halted (manager.setDomainBlocking input blocked) w post
      ↔ Guarantees regime halted (toggle manager.config domain blocked).run w fun result =>
          post (result, manager.forget) := by
  rw [setDomainBlocking_of_ok hdomain, guarantees_bind]
  exact Iff.rfl

/-- A toggle that is not waited for any longer ends where it hangs. -/
theorem guarantees_setDomainBlockingWithin {input domain : String} {blocked : Bool}
    {milliseconds : UInt64} (hdomain : Manager.domainOf input = .ok domain)
    {post : Except OverrideError Transition × Manager → World → Prop}
    (h : Guarantees regime
      (fun hung => ∀ after, hung.Stays after →
        post (.error (.timeout input milliseconds), manager.forget) after)
      (toggle manager.config domain blocked).run w fun result => post (result, manager.forget)) :
    Guarantees regime halted (manager.setDomainBlockingWithin input blocked milliseconds) w
      post := by
  rw [Manager.setDomainBlockingWithin, guarantees_bind, guarantees_bounded,
    guarantees_setDomainBlocking hdomain]
  refine Guarantees.mono h ?_ ?_
  · intro result after hpost
    exact hpost
  · intro hung hhung
    simp only
    rw [guarantees_bind]
    exact guarantees_warn hhung

theorem guarantees_setDomainBlockingWithin_of_error {input : String} {blocked : Bool}
    {milliseconds : UInt64} {e : OverrideError} (hdomain : Manager.domainOf input = .error e)
    {post : Except OverrideError Transition × Manager → World → Prop}
    (h : post (.error e, manager) w) :
    Guarantees regime halted (manager.setDomainBlockingWithin input blocked milliseconds) w
      post := by
  rw [Manager.setDomainBlockingWithin, guarantees_bind, guarantees_bounded,
    setDomainBlocking_of_error hdomain]
  exact h

/-- How the switch of the static ruleset ends. -/
inductive SwitchOutcome (regime : Regime) (config : Config) (enabled : Bool) (w : World) :
    Except OverrideError Unit → World → Prop where
  /-- The engine did not switch the ruleset. -/
  | refused (e : EngineError) {after : World} :
      regime.fails ∨ ¬ w.engine.rulesets.contains config.rulesetId → w.Stays after →
      SwitchOutcome regime config enabled w (.error (.engine e)) after
  /-- The ruleset is switched, but the state does not tell of it. -/
  | unpersisted (e : StoreError) {after : World} : regime.Disturbs →
      w.Becomes (switched w.engine config.rulesetId enabled) w.state after →
      SwitchOutcome regime config enabled w (.error (.ofStore e)) after
  | done (now : UInt64) {after : World} :
      w.Becomes (switched w.engine config.rulesetId enabled) ({ w.state with enabled }.touch now)
        after →
      SwitchOutcome regime config enabled w (.ok ()) after

/-- The manager after an operation that makes it forget only if it succeeds. -/
def Manager.forgetIfOk {α : Type} (manager : Manager) : Except OverrideError α → Manager
  | .ok _ => manager.forget
  | .error _ => manager

@[simp]
theorem Manager.config_forgetIfOk {α : Type} (manager : Manager)
    (result : Except OverrideError α) : (manager.forgetIfOk result).config = manager.config := by
  cases result with
  | ok a => rfl
  | error e => rfl

theorem guarantees_setGlobalEnabled {enabled : Bool} (hquiet : regime.Quiet)
    (hanswered : ¬ regime.hangs) {post : Except OverrideError Unit × Manager → World → Prop}
    (hend : ∀ result after, SwitchOutcome regime manager.config enabled w result after →
      post (result, manager.forgetIfOk result) after) :
    Guarantees regime halted (manager.setGlobalEnabled enabled) w post := by
  unfold Manager.setGlobalEnabled
  simp only
  rw [guarantees_bind, guarantees_attempt_bind, guarantees_onEngine]
  refine guarantees_setRuleset ?_ ?_ fun _ hhangs => absurd hhangs hanswered
  · intro set _ hset
    simp only [mapError_ok]
    rw [guarantees_attempt_bind]
    refine guarantees_update_ofStore hquiet ?_ ?_ fun _ hhangs => absurd hhangs hanswered
    · intro _ now after hafter
      rw [hset.engine, hset.state] at hafter
      exact hend _ after (.done now (hset.trans hafter))
    · intro e after hdisturbs hafter
      exact hend _ after (.unpersisted e hdisturbs (hset.then_stays hafter))
  · intro e after hcause hafter _
    exact hend _ after (.refused e hcause hafter)

/-- The status that an engine and a state tell. -/
def statusOf (engine : Engine) (state : PersistedState) : Status :=
  ⟨state.enabled, state.exemptedDomains, engine.enabledRulesets, state.lastUpdate⟩

theorem guarantees_readStatus (hquiet : regime.Quiet) (hanswered : ¬ regime.hangs)
    {post : Except OverrideError Status → World → Prop}
    (hok : ∀ after, w.Stays after → post (.ok (statusOf w.engine w.state)) after)
    (herror : ∀ e after, regime.Disturbs → w.Stays after → post (.error e) after) :
    Guarantees regime halted Manager.readStatus.run w post := by
  rw [Manager.readStatus, guarantees_attempt_bind]
  refine guarantees_loadState hquiet ?_ ?_ fun _ hhangs => absurd hhangs hanswered
  · intro read hread
    simp only
    rw [guarantees_attempt_bind, guarantees_onEngine]
    refine guarantees_enabledRulesets ?_ ?_ fun _ hhangs => absurd hhangs hanswered
    · intro after hafter
      simp only [mapError_ok, guarantees_attempt_pure, hread.engine]
      exact hok after (hread.then_stays hafter)
    · intro e after hfails hafter _
      exact herror _ after (.inl hfails) (hread.then_stays hafter)
  · intro e after hdisturbs hafter _
    exact herror e after hdisturbs hafter

theorem guarantees_status (hquiet : regime.Quiet) (hanswered : ¬ regime.hangs)
    {post : Except OverrideError Status × Manager → World → Prop}
    (hremembered : ∀ now s after, manager.statusCache.get? now = some s → w.Stays after →
      post (.ok s, manager) after)
    (hread : ∀ now after, w.Stays after → post (.ok (statusOf w.engine w.state),
      { manager with
        statusCache := manager.statusCache.insert now (statusOf w.engine w.state) }) after)
    (herror : ∀ e after, regime.Disturbs → w.Stays after → post (.error e, manager) after) :
    Guarantees regime halted manager.status w post := by
  rw [Manager.status, guarantees_bind]
  refine guarantees_clock fun now asked hasked => ?_
  cases hget : manager.statusCache.get? now.toNat with
  | some status => exact hremembered _ status asked hget hasked
  | none =>
    simp only
    rw [guarantees_bind]
    refine guarantees_readStatus hquiet hanswered ?_ ?_
    · intro told htold
      simp only
      rw [guarantees_bind]
      refine guarantees_clock fun later after hafter => ?_
      rw [hasked.engine, hasked.state]
      exact hread later.toNat after (hasked.then_stays (htold.then_stays hafter))
    · intro e after hdisturbs hafter
      exact herror e after hdisturbs (hasked.then_stays hafter)

theorem guarantees_restore {post : Except OverrideError RestoreReport × Manager → World → Prop}
    (h : Guarantees regime halted (restoreAll manager.config).run w fun result =>
      match result with
      | .ok report => post (.ok report, manager.forget)
      | .error e => post (.error e, manager)) :
    Guarantees regime halted manager.restore w post := by
  rw [Manager.restore, guarantees_bind]
  refine h.imp fun result after hpost => ?_
  cases result with
  | ok report => exact hpost
  | error e => exact hpost

end

/-! ## Steps -/

/-- The operations of the manager that touch the engine or the store. -/
inductive Operation where
  | toggle (input : String) (blocked : Bool)
  | toggleWithin (input : String) (blocked : Bool) (milliseconds : UInt64)
  | setGlobal (enabled : Bool)
  | restore
  | status

namespace Operation

/-- Whether an operation is given up when it hangs. -/
def isTimed : Operation → Bool
  | toggleWithin _ _ _ => true
  | _ => false

/-- The operation as a program that ends with the manager after it. -/
def program (manager : Manager) : Operation → Run Manager
  | toggle input blocked => return (← manager.setDomainBlocking input blocked).2
  | toggleWithin input blocked milliseconds =>
    return (← manager.setDomainBlockingWithin input blocked milliseconds).2
  | setGlobal enabled => return (← manager.setGlobalEnabled enabled).2
  | restore => return (← manager.restore).2
  | status => return (← manager.status).2

end Operation

/-- An operation, and the time and the faults that it meets. -/
structure Step where
  operation : Operation
  time : UInt64
  schedule : Schedule

/-- The environment of a step. -/
def Environment.at (env : Environment) (time : UInt64) (schedule : Schedule) : Environment :=
  { env with time, schedule }

/-- Nothing is exempted and no rules are installed. -/
def freshEnvironment : Environment :=
  ⟨.withRulesets ["ruleset_1"], .memory .empty, 0, .faultless, []⟩

/-- Carries out an operation; there is no manager after it if it hangs. -/
def Step.perform (step : Step) (manager : Manager) (env : Environment) :
    Option Manager × Environment :=
  (env.at step.time step.schedule).run (step.operation.program manager)

/-- Carries out steps one after another, as long as none hangs. -/
def runAll : List Step → Manager → Environment → Option (Manager × Environment)
  | [], manager, env => some (manager, env)
  | step :: rest, manager, env =>
    match step.perform manager env with
    | (some manager, env) => runAll rest manager env
    | (none, _) => none

/-- A step of a run, and the environments before and after it. -/
structure Passage where
  step : Step
  before : Environment
  after : Environment

/-- The steps of a run, as far as it comes. -/
def passages : List Step → Manager → Environment → List Passage
  | [], _, _ => []
  | step :: rest, manager, env =>
    match step.perform manager env with
    | (some manager, after) => ⟨step, env, after⟩ :: passages rest manager after
    | (none, _) => []

theorem step_mem_of_mem_passages {steps : List Step} {manager : Manager} {env : Environment}
    {p : Passage} (h : p ∈ passages steps manager env) : p.step ∈ steps := by
  induction steps generalizing manager env with
  | nil => cases h
  | cons step rest ih =>
    rw [passages] at h
    split at h
    · rcases List.mem_cons.1 h with rfl | h
      · exact List.mem_cons_self ..
      · exact List.mem_cons_of_mem _ (ih h)
    · cases h

/-- The error that an operation has ended with. -/
def failure? {α : Type} : Option (Except OverrideError α × Manager) → Option OverrideError
  | some (.error e, _) => some e
  | _ => none

theorem eq_error_of_failure? {α : Type} {result : Except OverrideError α} {manager : Manager}
    {e : OverrideError} (h : failure? (some (result, manager)) = some e) : result = .error e := by
  cases result with
  | ok a => cases h
  | error e' =>
    cases h
    rfl

/-- The state that the store of an environment answers with. -/
def Environment.persisted? (env : Environment) : Option PersistedState :=
  match env.store.load.1 with
  | .ok v => some v.state
  | .error _ => none

theorem persisted?_of_holds {view : Store.View} {env : Environment} {v : Versioned}
    (h : view.Holds env.store v) : env.persisted? = some v.state := by
  rw [Environment.persisted?, (view.load h).1]

/-- What each step keeps, whatever answers it gets, holds after all of them. -/
theorem exists_runAll {view : Store.View} {regime : Step → Regime} {steps : List Step}
    (inv : Manager → Engine → PersistedState → Prop)
    (hadmits : ∀ step ∈ steps, (regime step).Admits step.schedule)
    (hstep : ∀ step ∈ steps, ∀ manager w, inv manager w.engine w.state →
      Guarantees (regime step) (fun _ => False) (step.operation.program manager) w
        fun manager' after => inv manager' after.engine after.state)
    {manager : Manager} {env : Environment} {v : Versioned} (hholds : view.Holds env.store v)
    (hinv : inv manager env.engine v.state) :
    ∃ manager' env' v', runAll steps manager env = some (manager', env')
      ∧ view.Holds env'.store v' ∧ inv manager' env'.engine v'.state := by
  induction steps generalizing manager env v with
  | nil => exact ⟨manager, env, v, rfl, hholds, hinv⟩
  | cons step rest ih =>
    -- The log of a world starts anew with each operation.
    have hguarantees := hstep step (List.mem_cons_self ..) manager ⟨env.engine, v, []⟩ hinv
    obtain ⟨manager', env', v', hrun, hholds', hinv'⟩ :=
      Guarantees.exists_run (env.at step.time step.schedule) hguarantees hholds
        (hadmits step (List.mem_cons_self ..))
    rw [runAll, Step.perform, hrun]
    exact ih (fun s hs => hadmits s (List.mem_cons_of_mem _ hs))
      (fun s hs => hstep s (List.mem_cons_of_mem _ hs)) hholds' hinv'

end Blocklist.Override
