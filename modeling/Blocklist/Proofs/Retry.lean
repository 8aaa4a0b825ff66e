import Blocklist.Proofs.Calm

set_option autoImplicit false

/-! # Lost races and timeouts can be tried again

A toggle that loses a race or runs out of time may have got its ids, and it may have added or
removed rules, but at the ids of its own domain only (`Unsettled`). Trying again clears just these
ids first and finds the same ids known, so it ends as the first attempt would have ended without
failures (`retry_ends_alike`). -/

namespace Blocklist.Override

/-- What an attempt may leave that can be tried again: nothing was touched, or the domain has its
ids and the engine is as before but for the rules there. -/
inductive Unsettled (config : Config) (domain : String) (blocked : Bool) (engine : Engine)
    (state : PersistedState) : Engine → PersistedState → Prop where
  | untouched : Unsettled config domain blocked engine state engine state
  | begun {ids : IdPair} {engine' : Engine} {prepared : PersistedState} :
      prepare config domain state = .ok (ids, none, prepared) →
      (blocked = true → knownIds? config state domain = some ids) →
      engine'.removeRules ids.toList = engine.removeRules ids.toList →
      Unsettled config domain blocked engine state engine' prepared

section

variable {config : Config} {domain : String} {blocked : Bool} {engine engine' : Engine}
  {state state' : PersistedState} {ids : IdPair}

/-- The next attempt leads where the first one would have led. -/
theorem Unsettled.settle_eq (h : Unsettled config domain blocked engine state engine' state') :
    settle config domain blocked engine' state' = settle config domain blocked engine state := by
  cases h with
  | untouched => rfl
  | @begun ids _ _ hprepare hknown hengine =>
    have hagain := knownIds?_of_prepare hprepare
    cases blocked with
    | true =>
      have hknown := hknown rfl
      rw [prepare_of_knownIds? hknown] at hprepare
      cases hprepare
      have hids : blockedIds config state domain = some ids := by
        rw [blockedIds, hknown]
        rfl
      simp only [settle, if_true, hids]
      show Settlement.mk _ (engine'.removeRules ids.toList) _ = _
      rw [hengine]
      rfl
    | false =>
      simp only [settle, Bool.false_eq_true, if_false, hprepare, prepare_of_knownIds? hagain,
        clearedIds_none, hengine, isExempted_of_prepare hprepare]

/-- Nothing of the state is changed but the table. -/
theorem Unsettled.kept (h : Unsettled config domain blocked engine state engine' state') :
    state'.exemptedDomains = state.exemptedDomains ∧ state'.enabled = state.enabled
      ∧ state'.lastUpdate = state.lastUpdate := by
  cases h with
  | untouched => exact ⟨rfl, rfl, rfl⟩
  | begun hprepare =>
    rw [eq_of_prepare hprepare]
    exact ⟨rfl, rfl, rfl⟩

/-- In the table, nothing is changed but that the domain may have got its pair. -/
theorem Unsettled.get? (h : Unsettled config domain blocked engine state engine' state')
    (other : String) : state'.overrideIds.get? other = state.overrideIds.get? other
      ∨ other = domain ∧ state.overrideIds.get? other = none := by
  cases h with
  | untouched => exact Or.inl rfl
  | begun hprepare => exact get?_of_prepare hprepare other

end

/-! ## What an attempt leaves -/

section

variable {regime : Regime} {halted : World → Prop} {w after : World} {config : Config}
  {domain : String} {blocked : Bool}

theorem World.Becomes.unsettled {engine : Engine} {state : PersistedState}
    (h : w.Becomes engine state after)
    (hunsettled : Unsettled config domain blocked w.engine w.state engine state) :
    Unsettled config domain blocked w.engine w.state after.engine after.state := by
  rw [h.engine, h.state]
  exact hunsettled

/-- A domain that has ids if it is exempted has no stale ones. -/
theorem stale_eq_none_of_prepare {state prepared : PersistedState} {ids : IdPair}
    {stale : Option IdPair}
    (hknown : state.isExempted domain = true → knownIds? config state domain ≠ none)
    (h : prepare config domain state = .ok (ids, stale, prepared)) : stale = none := by
  cases hids : knownIds? config state domain with
  | some p =>
    rw [prepare_of_knownIds? hids] at h
    cases h
    rfl
  | none =>
    obtain ⟨rfl, -⟩ := prepare_of_fresh hids h
    exact if_neg fun hexempted => hknown hexempted hids

theorem GrantedOutcome.unsettled {ids : IdPair} {state : PersistedState} {e : OverrideError}
    (hprepare : prepare config domain w.state = .ok (ids, none, state))
    (hend : GrantedOutcome regime config domain w ids none state (.error e) after)
    (hretry : e.isRetryable = true) :
    Unsettled config domain false w.engine w.state after.engine after.state := by
  have hbegun : ∀ {engine}, engine.removeRules ids.toList = w.engine.removeRules ids.toList →
      Unsettled config domain false w.engine w.state engine state :=
    fun hengine => .begun hprepare nofun hengine
  cases hend with
  | untouched _ _ hafter _ => exact hafter.unsettled (hbegun rfl)
  | cleared => cases hretry
  | dropped => cases hretry
  | undropped => cases hretry
  | kept _ _ hinstalled hafter _ => exact hafter.unsettled (hbegun hinstalled.removeRules)
  | withdrawn _ _ hinstalled hafter _ =>
    refine hafter.unsettled (hbegun ?_)
    rw [Engine.removeRules_removeRules, hinstalled.removeRules]
  | stranded _ _ _ hinstalled hafter _ _ _ =>
    exact hafter.unsettled (hbegun hinstalled.removeRules)

theorem GrantedHalt.unsettled {ids : IdPair} {state : PersistedState}
    (hprepare : prepare config domain w.state = .ok (ids, none, state))
    (hhalt : GrantedHalt config domain w ids none state after) :
    Unsettled config domain false w.engine w.state after.engine after.state := by
  cases hhalt with
  | granted hafter => exact hafter.unsettled (.begun hprepare nofun rfl)
  | cleared hafter =>
    refine hafter.unsettled (.begun hprepare nofun ?_)
    rw [clearedIds_none, Engine.removeRules_removeRules]
  | installed hinstalled hafter =>
    exact hafter.unsettled (.begun hprepare nofun hinstalled.removeRules)

/-- Blocking a domain clears the ids that it has already. -/
theorem blockedIds_eq_knownIds? {state : PersistedState}
    (hknown : state.isExempted domain = true → knownIds? config state domain ≠ none) :
    blockedIds config state domain = knownIds? config state domain := by
  rw [blockedIds]
  cases hids : knownIds? config state domain with
  | some ids => rfl
  | none => exact if_neg fun hexempted => hknown hexempted hids

/-- The ids of the domain are cleared, if it has any. -/
theorem Unsettled.of_cleared {engine : Engine} {state : PersistedState} :
    Unsettled config domain true engine state
      (engine.removeRules ((knownIds? config state domain).elim [] IdPair.toList)) state := by
  cases hids : knownIds? config state domain with
  | none => exact .untouched
  | some ids =>
    exact .begun (prepare_of_knownIds? hids) (fun _ => hids) (Engine.removeRules_removeRules ..)

theorem UnexemptOutcome.unsettled {e : OverrideError}
    (hend : UnexemptOutcome regime config domain w (knownIds? config w.state domain) (.error e)
      after) :
    Unsettled config domain true w.engine w.state after.engine after.state := by
  cases hend with
  | failed _ _ hafter _ => exact hafter.unsettled .untouched
  | uncommitted _ _ hafter _ => exact hafter.unsettled .of_cleared
  | reinstated _ _ hids hinstalled hafter _ =>
    exact hafter.unsettled (.begun (prepare_of_knownIds? hids) (fun _ => hids)
      hinstalled.removeRules)
  | lost _ _ _ _ hafter _ _ => exact hafter.unsettled .of_cleared

theorem UnexemptHalt.unsettled
    (hhalt : UnexemptHalt w (knownIds? config w.state domain) after) :
    Unsettled config domain true w.engine w.state after.engine after.state := by
  cases hhalt with
  | before hafter => exact hafter.unsettled .untouched
  | removed hafter => exact hafter.unsettled .of_cleared

/-- A toggle that fails with an error that can be tried again, or hangs, leaves what can be tried
again. -/
theorem guarantees_toggle_unsettled (hquiet : regime.Quiet)
    (hknown : w.state.isExempted domain = true → knownIds? config w.state domain ≠ none) :
    Guarantees regime
      (fun hung => Unsettled config domain blocked w.engine w.state hung.engine hung.state)
      (toggle config domain blocked).run w fun result after =>
        ∀ e, result = .error e → e.isRetryable = true →
          Unsettled config domain blocked w.engine w.state after.engine after.state := by
  rw [toggle]
  cases blocked with
  | true =>
    have hids := blockedIds_eq_knownIds? hknown
    refine guarantees_unexempt_blockedIds hquiet ?_ ?_
    · rintro _ after hend e rfl _
      rw [hids] at hend
      exact hend.unsettled
    · intro after _ hhalt
      rw [hids] at hhalt
      exact hhalt.unsettled
  | false =>
    refine guarantees_exempt_prepare hquiet ?_ ?_ ?_ ?_ ?_
    · rintro ids stale state _ after hprepare hend e rfl hretry
      obtain rfl := stale_eq_none_of_prepare hknown hprepare
      exact hend.unsettled hprepare hretry
    · rintro e after _ _ _ ⟨⟩ hretry
      cases hretry
    · intro e after _ hafter _ _ _
      exact hafter.unsettled .untouched
    · intro ids stale state after _ hprepare hhalt
      obtain rfl := stale_eq_none_of_prepare hknown hprepare
      exact hhalt.unsettled hprepare
    · intro after _ hafter
      exact hafter.unsettled .untouched

end

section

-- Otherwise the elaborator tries to compute the name of an unknown input.
attribute [local irreducible] Manager.domainOf

theorem guarantees_setDomainBlockingWithin_unsettled {manager : Manager} {input domain : String}
    {blocked : Bool} {milliseconds : UInt64} {w : World}
    (hdomain : Manager.domainOf input = .ok domain)
    (hknown : w.state.isExempted domain = true →
      knownIds? manager.config w.state domain ≠ none) :
    Guarantees (.rough True) (fun _ => False)
      (manager.setDomainBlockingWithin input blocked milliseconds) w
      fun outcome after => outcome.2 = manager.forget
        ∧ ∀ e, outcome.1 = .error e → e.isRetryable = true →
          Unsettled manager.config domain blocked w.engine w.state after.engine after.state := by
  refine guarantees_setDomainBlockingWithin hdomain
    (Guarantees.mono (guarantees_toggle_unsettled (Regime.quiet_rough _) hknown) ?_ ?_)
  · intro result after hend
    exact ⟨rfl, hend⟩
  · intro hung hunsettled after hafter
    refine ⟨rfl, fun _ _ _ => ?_⟩
    rw [hafter.engine, hafter.state]
    exact hunsettled

/-- A toggle of a domain that has ids if it is exempted may meet any failures, lost races and hung
calls. If it ends with a lost race or a timeout, nothing of the state is changed but that the
domain may have got its pair; and the same call without failures then gives the result, the
exemptions, the table and the engine that it would have given in the first place. -/
theorem retry_ends_alike {view : Store.View} (manager : Manager) (input : String) (blocked : Bool)
    (milliseconds : UInt64) {env : Environment} {v : Versioned} (hholds : view.Holds env.store v)
    (hadmits : (Regime.rough True).Admits env.schedule)
    (hknown : ∀ domain, Manager.domainOf input = .ok domain → v.state.isExempted domain = true →
      knownIds? manager.config v.state domain ≠ none) :
    ∃ result manager' after v',
      env.run (manager.setDomainBlockingWithin input blocked milliseconds)
        = (some (result, manager'), after)
      ∧ view.Holds after.store v'
      ∧ ∀ e, result = .error e → e.isRetryable = true →
        v'.state.exemptedDomains = v.state.exemptedDomains
        ∧ v'.state.enabled = v.state.enabled
        ∧ v'.state.lastUpdate = v.state.lastUpdate
        ∧ (∀ other, v'.state.overrideIds.get? other = v.state.overrideIds.get? other
            ∨ Manager.domainOf input = .ok other ∧ v.state.overrideIds.get? other = none)
        ∧ ∀ time time' schedule schedule', Regime.calm.Admits schedule →
          Regime.calm.Admits schedule' →
          ∃ settled retried first v₁ v₂,
            (after.at time schedule).run
                (manager'.setDomainBlockingWithin input blocked milliseconds)
              = (some (settled, manager'.forget), retried)
            ∧ (env.at time' schedule').run
                (manager.setDomainBlockingWithin input blocked milliseconds)
              = (some (settled, manager.forget), first)
            ∧ view.Holds retried.store v₁
            ∧ view.Holds first.store v₂
            ∧ v₁.state.exemptedDomains = v₂.state.exemptedDomains
            ∧ v₁.state.overrideIds = v₂.state.overrideIds
            ∧ retried.engine = first.engine := by
  cases hdomain : Manager.domainOf input with
  | error e =>
    -- What names no domain is no reason to try again.
    have hrefused : Guarantees (.rough True) (fun _ => False)
        (manager.setDomainBlockingWithin input blocked milliseconds) ⟨env.engine, v, []⟩
        fun outcome _ => outcome = (.error e, manager) :=
      guarantees_setDomainBlockingWithin_of_error hdomain rfl
    obtain ⟨_, after, v', hrun, hheld, rfl⟩ := hrefused.exists_run env hholds hadmits
    refine ⟨.error e, manager, after, v', hrun, hheld, ?_⟩
    rintro _ ⟨⟩ hretry
    rw [eq_of_domainOf_eq_error hdomain] at hretry
    cases hretry
  | ok domain =>
    obtain ⟨⟨result, manager'⟩, after, v', hrun, hheld, rfl, hend⟩ :=
      (guarantees_setDomainBlockingWithin_unsettled (w := ⟨env.engine, v, []⟩) hdomain
        (hknown domain hdomain)).exists_run env hholds hadmits
    refine ⟨result, manager.forget, after, v', hrun, hheld, fun e he hretry => ?_⟩
    have hunsettled : Unsettled manager.config domain blocked env.engine v.state after.engine
        v'.state := hend e he hretry
    obtain ⟨hexempted, henabled, htime⟩ := hunsettled.kept
    refine ⟨hexempted, henabled, htime, fun other => ?_, ?_⟩
    · refine (hunsettled.get? other).imp_right ?_
      rintro ⟨rfl, hnew⟩
      exact ⟨rfl, hnew⟩
    · intro time time' schedule schedule' hcalm hcalm'
      obtain ⟨⟨again, _⟩, retried, v₁, hretried, hheld₁, rfl, hagain⟩ :=
        (guarantees_setDomainBlockingWithin_calm manager.forget blocked
          (w := ⟨after.engine, v', []⟩) hdomain).exists_run (after.at time schedule) hheld hcalm
      obtain ⟨⟨settled, _⟩, first, v₂, hfirst, hheld₂, rfl, hsettled⟩ :=
        (guarantees_setDomainBlockingWithin_calm manager blocked
          (w := ⟨env.engine, v, []⟩) hdomain).exists_run (env.at time' schedule') hholds hcalm'
      -- Both lead where the first attempt would have led.
      have hsame := hunsettled.settle_eq
      have hagain : Settled (settle manager.config domain blocked env.engine v.state) again _ :=
        hsame ▸ hagain
      obtain rfl : again = settled := hagain.result.trans hsettled.result.symm
      refine ⟨again, retried, first, v₁, v₂, hretried, hfirst, hheld₁, hheld₂, ?_, ?_, ?_⟩
      · exact hagain.exemptedDomains.trans hsettled.exemptedDomains.symm
      · exact hagain.overrideIds.trans hsettled.overrideIds.symm
      · exact hagain.engine.trans hsettled.engine.symm

end

/-- Surroundings in which a pair is cleared and then no answer comes. -/
def unresponsive : Environment :=
  ⟨.withRulesets ["ruleset_1"], .memory .empty, 0, Schedule.faultless.set .addRules [.hang], []⟩

/-- An exemption is given up after the domain has got its pair, and the next attempt is as good as
the first. -/
theorem retry_after_timeout :
    ∃ manager' after v',
      unresponsive.run (Manager.setDomainBlockingWithin ⟨.standard, .new 1000⟩ "a.com" false 5000)
        = (some (.error (.timeout "a.com" 5000), manager'), after)
      ∧ Store.View.memory.Holds after.store v'
      ∧ v'.state.exemptedDomains = []
      ∧ ∃ settled retried first v₁ v₂,
        (after.at 0 .faultless).run (manager'.setDomainBlockingWithin "a.com" false 5000)
            = (some (settled, manager'.forget), retried)
        ∧ (unresponsive.at 0 .faultless).run
            (Manager.setDomainBlockingWithin ⟨.standard, .new 1000⟩ "a.com" false 5000)
            = (some (settled, Manager.forget ⟨.standard, .new 1000⟩), first)
        ∧ Store.View.memory.Holds retried.store v₁
        ∧ Store.View.memory.Holds first.store v₂
        ∧ v₁.state.exemptedDomains = v₂.state.exemptedDomains
        ∧ v₁.state.overrideIds = v₂.state.overrideIds
        ∧ retried.engine = first.engine := by
  have hgivenUp : failure? (unresponsive.run
        (Manager.setDomainBlockingWithin ⟨.standard, .new 1000⟩ "a.com" false 5000)).1
      = some (.timeout "a.com" 5000) := by
    decide +kernel
  have hholds : Store.View.memory.Holds unresponsive.store .unwritten := rfl
  have hadmits : (Regime.rough True).Admits unresponsive.schedule :=
    (Regime.admits_faultless _).set .addRules (by simp [Regime.Allows, Regime.rough])
  obtain ⟨result, manager', after, v', hrun, hheld, hend⟩ :=
    retry_ends_alike ⟨.standard, .new 1000⟩ "a.com" false 5000 hholds hadmits nofun
  rw [hrun] at hgivenUp
  obtain rfl := eq_error_of_failure? hgivenUp
  obtain ⟨hexempted, -, -, -, hagain⟩ := hend _ rfl rfl
  exact ⟨manager', after, v', hrun, hheld, hexempted, hagain 0 0 .faultless .faultless
    (Regime.admits_faultless _) (Regime.admits_faultless _)⟩

end Blocklist.Override
