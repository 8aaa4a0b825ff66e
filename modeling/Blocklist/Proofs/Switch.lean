import Blocklist.Proofs.Operation

set_option autoImplicit false

/-! # The global switch

The engine is switched first and the state second, and nothing switches the engine back when the
state cannot be changed. So after a change that fails on the store, and after no other, the ruleset
is not as the state says (`switch_agrees_iff`). -/

namespace Blocklist.Override

/-- No failure of the engine is one of the store. -/
theorem OverrideError.engine_ne_ofStore (e : EngineError) (e' : StoreError) :
    OverrideError.engine e ≠ .ofStore e' := by
  cases e' with
  | conflict expected found => exact nofun
  | io path cause => exact nofun
  | corrupt path cause => exact nofun
  | unavailable reason => exact nofun

/-- Ruleset and state, once they agree, agree after the switch too unless it has moved the ruleset
and then failed on the store. The state has the new value iff the switch succeeded or it had it
before. -/
theorem SwitchOutcome.agrees_iff {regime : Regime} {config : Config} {enabled : Bool}
    {w after : World} {result : Except OverrideError Unit}
    (hagrees : w.engine.isEnabled config.rulesetId = w.state.enabled)
    (h : SwitchOutcome regime config enabled w result after) :
    (after.state.enabled = enabled ↔ result = .ok () ∨ w.state.enabled = enabled)
      ∧ (after.engine.isEnabled config.rulesetId = after.state.enabled
          ↔ ¬ (w.state.enabled ≠ enabled ∧ ∃ e, result = .error (.ofStore e))) := by
  cases h with
  | refused e _ hafter =>
    rw [hafter.engine, hafter.state]
    refine ⟨(or_iff_right nofun).symm, iff_of_true hagrees ?_⟩
    rintro ⟨-, e', he⟩
    exact OverrideError.engine_ne_ofStore e e' (Except.error.inj he)
  | unpersisted e _ hafter =>
    rw [hafter.engine, hafter.state, isEnabled_switched]
    refine ⟨(or_iff_right nofun).symm, ?_⟩
    rw [and_iff_left ⟨e, rfl⟩, Decidable.not_not, eq_comm]
  | done now hafter =>
    rw [hafter.engine, hafter.state, isEnabled_switched]
    exact ⟨iff_of_true rfl (Or.inl rfl), iff_of_true rfl fun h => nomatch h.2⟩

/-- A switch starts where the ruleset is as the state says. However many of its calls fail without
effect, and whether or not somebody else moves the revision of the state in between, it ends; the
state then has the new value iff the switch succeeded or it had it before, and the ruleset is as the
state says unless the value was to change and the switch failed on the store. -/
theorem switch_agrees_iff {view : Store.View} {manager : Manager} {env : Environment}
    {v : Versioned} (enabled : Bool) (hholds : view.Holds env.store v)
    (hadmits : (Regime.rough False).Admits env.schedule)
    (hagrees : env.engine.isEnabled manager.config.rulesetId = v.state.enabled) :
    ∃ result manager' after v',
      env.run (manager.setGlobalEnabled enabled) = (some (result, manager'), after)
      ∧ view.Holds after.store v'
      ∧ (v'.state.enabled = enabled ↔ result = .ok () ∨ v.state.enabled = enabled)
      ∧ (after.engine.isEnabled manager.config.rulesetId = v'.state.enabled
          ↔ ¬ (v.state.enabled ≠ enabled ∧ ∃ e, result = .error (.ofStore e))) := by
  have hguarantees : Guarantees (.rough False) (fun _ => False)
      (manager.setGlobalEnabled enabled) ⟨env.engine, v, []⟩ fun outcome after =>
        SwitchOutcome (.rough False) manager.config enabled ⟨env.engine, v, []⟩ outcome.1 after :=
    guarantees_setGlobalEnabled (Regime.quiet_rough False) id fun _ _ hout => hout
  obtain ⟨⟨result, manager'⟩, after, v', hrun, hheld, hout⟩ :=
    hguarantees.exists_run env hholds hadmits
  exact ⟨result, manager', after, v', hrun, hheld, hout.agrees_iff hagrees⟩

/-- A fresh engine and a store that does not take the next commit. -/
def uncommitting : Environment :=
  freshEnvironment.at 0 (Schedule.faultless.set .commit [.unavailable])

theorem admits_uncommitting : (Regime.rough False).Admits uncommitting.schedule :=
  (Regime.admits_faultless _).set .commit (by simp [Regime.Allows, Regime.rough])

theorem switch_agrees_iff_uncommitting :
    uncommitting.engine.isEnabled "ruleset_1" = PersistedState.initial.enabled
      ∧ ∃ result manager' after v',
        uncommitting.run (Manager.setGlobalEnabled ⟨.standard, .new 1000⟩ false)
          = (some (result, manager'), after)
        ∧ Store.View.memory.Holds after.store v'
        ∧ (v'.state.enabled = false ↔ result = .ok () ∨ PersistedState.initial.enabled = false)
        ∧ (after.engine.isEnabled "ruleset_1" = v'.state.enabled
            ↔ ¬ (PersistedState.initial.enabled ≠ false ∧ ∃ e, result = .error (.ofStore e))) := by
  have hagrees : uncommitting.engine.isEnabled "ruleset_1" = PersistedState.initial.enabled := by
    decide +kernel
  have hholds : Store.View.memory.Holds uncommitting.store .unwritten := rfl
  exact ⟨hagrees, switch_agrees_iff false hholds admits_uncommitting hagrees⟩

/-- The switch is turned off, the commit fails, and the ruleset stays off while the state says that
it is on. -/
theorem switched_off_unpersisted :
    let outcome := uncommitting.run (Manager.setGlobalEnabled ⟨.standard, .new 1000⟩ false)
    uncommitting.engine.isEnabled "ruleset_1" = true
      ∧ uncommitting.persisted?.map (·.enabled) = some true
      ∧ failure? outcome.1 = some (.store (.unavailable "injected"))
      ∧ outcome.2.engine.isEnabled "ruleset_1" = false
      ∧ outcome.2.persisted?.map (·.enabled) = some true := by
  decide +kernel

end Blocklist.Override
