import Blocklist.Proofs.Obedience
import Blocklist.Proofs.Operation

set_option autoImplicit false

/-! # How operations conduct themselves

Under the table scheme operations keep to two rules at every call, wherever they start and whatever
they are answered (`obeys_program`): rules are added for a domain only while the ids they stand at
are the domain's in the persisted state, and what is committed is the current state with a single
change (`Evolves`). All that a call can then do to the engine and the state is an `Effect`. -/

namespace Blocklist.Override

/-- The changes of the state that operations commit. -/
inductive Evolves (config : Config) (state : PersistedState) : PersistedState → Prop where
  | allocated {domain : String} {ids : IdPair} {table : IdTable} :
      state.overrideIds.get? domain = none →
      allocation config state.overrideIds domain = .ok (ids, table) →
      Evolves config state { state with overrideIds := table }
  | exempted {domain : String} {ids : IdPair} (now : UInt64) :
      state.overrideIds.get? domain = some ids →
      Evolves config state ((state.addExemption domain).touch now)
  | blocked (domain : String) (now : UInt64) :
      Evolves config state ((state.removeExemption domain).touch now)
  | switched (enabled : Bool) (now : UInt64) :
      Evolves config state ({ state with enabled }.touch now)

/-- What operations may ask for: rules of a domain at the ids that blocking it would clear, and
changes of the current state. -/
def Lawful (config : Config) (w : World) : Call → Prop
  | .addRules rules => ∃ domain ids, touchedIds w.state domain = some ids
      ∧ rules = pairRules config domain ids
  | .commit expected state => expected = w.stored.revision ∧ Evolves config w.state state
  | _ => True

section

variable {regime : Regime} {config : Config} {domain : String} {w : World}

/-! ## Calls -/

theorem obeys_setRuleset (ruleset : String) (on : Bool) :
    Obeys regime (Lawful config) (setRuleset ruleset on) w := by
  cases on with
  | true => exact obeys_ask trivial
  | false => exact obeys_ask trivial

theorem obeys_loadState : Obeys regime (Lawful config) loadState.run w :=
  obeys_attempt_bind_of_forall (obeys_onStore (obeys_ask trivial)) fun _ _ => trivial

/-- What is done with the state that was read. -/
theorem obeys_load_bind {α : Type} (hquiet : regime.Quiet) {f : Versioned → Attempt α}
    (h : ∀ read, w.Stays read → Obeys regime (Lawful config) (f read.stored).run read) :
    Obeys regime (Lawful config) (load >>= f).run w := by
  refine obeys_attempt_bind (obeys_onStore (obeys_ask trivial)) (guarantees_load hquiet ?_ ?_ ?_)
  · rintro read hread _ ⟨⟩
    exact h read hread
  · intro e after _ _ _ v hv
    cases hv
  · exact fun _ _ _ => trivial

theorem obeys_loadState_bind {α : Type} (hquiet : regime.Quiet) {f : PersistedState → Attempt α}
    (h : ∀ read, w.Stays read → Obeys regime (Lawful config) (f w.state).run read) :
    Obeys regime (Lawful config) (loadState >>= f).run w := by
  rw [loadState, bind_assoc]
  refine obeys_load_bind hquiet fun read hread => ?_
  have hstate : read.stored.state = w.state := hread.state
  rw [pure_bind, hstate]
  exact h read hread

theorem obeys_update (hquiet : regime.Quiet) {change : PersistedState → PersistedState}
    (h : ∀ now, Evolves config w.state ((change w.state).touch now)) :
    Obeys regime (Lawful config) (update change).run w := by
  rw [update]
  refine obeys_load_bind hquiet fun read hread => ?_
  refine obeys_attempt_bind (obeys_attempt_lift (obeys_ask trivial)) ?_
  refine (guarantees_attempt_lift _ _ _).2 (guarantees_ask .clock ?_)
  rintro reply after ⟨⟨now, rfl⟩, rfl⟩ _ ⟨⟩
  have hstate : after.stored.state = w.state := hread.state
  refine obeys_onStore (obeys_ask ⟨rfl, ?_⟩)
  show Evolves config after.stored.state ((change after.stored.state).touch now)
  rw [hstate]
  exact h now

/-! ## Toggles -/

/-- What is done with what the table gives. -/
theorem obeys_onTable_bind {α β : Type} {result : Except IdError α} {f : α → Attempt β}
    (h : ∀ a, result = .ok a → Obeys regime (Lawful config) (f a).run w) :
    Obeys regime (Lawful config) (onTable result >>= f).run w := by
  cases result with
  | ok a => exact h a rfl
  | error e => trivial

theorem obeys_idsForInstall (htable : config.idScheme = .table) (hquiet : regime.Quiet) :
    Obeys regime (Lawful config) (idsForInstall config domain).run w := by
  unfold idsForInstall
  rw [htable]
  simp only
  refine obeys_load_bind hquiet fun read _ => ?_
  cases hknown : read.stored.state.overrideIds.get? domain with
  | some ids => trivial
  | none =>
    refine obeys_onTable_bind fun _ hroom => obeys_onTable_bind fun ids hpair => ?_
    -- The allocation starts from the state that was just read.
    have hallocation := allocation_eq_ok (Prod.ext hroom rfl) (Prod.ext hpair rfl)
    exact obeys_attempt_bind_of_forall
      (obeys_onStore (obeys_ask ⟨rfl, .allocated hknown hallocation⟩)) fun _ _ => trivial

theorem obeys_installPair {ids : IdPair} {stale : Option IdPair}
    (hids : touchedIds w.state domain = some ids) :
    Obeys regime (Lawful config) (installPair config domain ids stale) w := by
  rw [installPair]
  refine obeys_bind (obeys_ask trivial) (guarantees_removeRules ?_ ?_ fun _ _ _ => trivial)
  · intro removed hremoved _
    refine obeys_bind_of_forall (obeys_ask ⟨domain, ids, ?_, rfl⟩) ?_
    · rw [hremoved.state, hids]
    · rintro (e | ⟨⟨⟩⟩) after
      · trivial
      · trivial
  · exact fun _ _ _ _ _ => trivial

theorem obeys_withdrawPair {ids : IdPair} :
    Obeys regime (Lawful config) (withdrawPair domain ids) w := by
  refine obeys_bind_of_forall (obeys_ask trivial) ?_
  rintro (e | ⟨⟨⟩⟩) after
  · exact obeys_ask trivial
  · exact obeys_ask trivial

theorem obeys_dropExemption (hquiet : regime.Quiet) :
    Obeys regime (Lawful config) (dropExemption domain) w := by
  refine obeys_bind_of_forall (obeys_update hquiet fun now => .blocked domain now) ?_
  rintro (e | revision) after
  · exact obeys_bind_of_forall (obeys_ask trivial) fun _ _ => obeys_ask trivial
  · exact obeys_ask trivial

theorem obeys_settleExempted {ids p : IdPair} (hquiet : regime.Quiet) (wasExempted : Bool)
    (hids : w.state.overrideIds.get? domain = some p) (installed : Except InstallFailure Unit) :
    Obeys regime (Lawful config) (settleExempted domain ids wasExempted installed).run w := by
  match installed with
  | .error (.untouched e) => trivial
  | .error (.pairRemoved e) =>
    cases wasExempted with
    | false => trivial
    | true =>
      exact obeys_attempt_bind_of_forall (obeys_attempt_lift (obeys_dropExemption hquiet))
        fun _ _ => trivial
  | .ok () =>
    refine obeys_attempt_bind_of_forall
      (obeys_outcome (obeys_update hquiet fun now => .exempted now hids)) ?_
    rintro (e | revision) after
    · cases wasExempted with
      | true => trivial
      | false =>
        exact obeys_attempt_bind_of_forall (obeys_attempt_lift obeys_withdrawPair)
          fun _ _ => trivial
    · trivial

theorem obeys_exemptWith {ids : IdPair} {stale : Option IdPair} (hquiet : regime.Quiet)
    (hids : w.state.overrideIds.get? domain = some ids) :
    Obeys regime (Lawful config) (exemptWith config domain ids stale).run w := by
  rw [exemptWith]
  refine obeys_loadState_bind hquiet fun read hread => ?_
  have hids : read.state.overrideIds.get? domain = some ids := by rw [hread.state, hids]
  refine obeys_attempt_bind
    (obeys_attempt_lift (obeys_installPair (touchedIds_of_get?_eq_some hids))) ?_
  -- Installing the pair leaves the state as it is.
  have hsettle : ∀ (after : World) (installed : Except InstallFailure Unit),
      after.state = read.state → ∀ x, (Except.ok installed : Except OverrideError _) = .ok x →
        Obeys regime (Lawful config)
          (settleExempted domain ids (w.state.isExempted domain) x).run after := by
    rintro after installed hafter _ ⟨⟩
    exact obeys_settleExempted hquiet _ (hafter ▸ hids) installed
  refine (guarantees_attempt_lift _ _ _).2 (guarantees_installPair ?_ ?_ ?_ fun _ _ _ => trivial)
  · exact fun _ after _ hafter _ => hsettle after _ hafter.state
  · exact fun _ after _ hafter _ => hsettle after _ hafter.state
  · exact fun _ after _ hafter _ => hsettle after _ hafter.state

theorem obeys_exempt (htable : config.idScheme = .table) (hquiet : regime.Quiet) :
    Obeys regime (Lawful config) (exempt config domain).run w := by
  rw [exempt_eq]
  refine obeys_attempt_bind (obeys_idsForInstall htable hquiet)
    (guarantees_idsForInstall htable hquiet ?_ ?_ ?_ fun _ _ _ => trivial)
  · rintro ids stale state after hgranted hafter _ ⟨⟩
    exact obeys_exemptWith hquiet (hafter.state ▸ hgranted.get?_self)
  · rintro e after _ _ _ _ ⟨⟩
  · rintro e after _ _ _ _ ⟨⟩

theorem obeys_commitBlocked {ids : Option IdPair} (hquiet : regime.Quiet) (wasExempted : Bool)
    (hids : touchedIds w.state domain = ids) :
    Obeys regime (Lawful config) (commitBlocked config domain wasExempted ids).run w := by
  rw [commitBlocked]
  refine obeys_attempt_bind (obeys_outcome (obeys_update hquiet fun now => .blocked domain now)) ?_
  rw [guarantees_outcome]
  refine guarantees_update hquiet ?_ ?_ fun _ _ _ => trivial
  · rintro _ _ after _ _ ⟨⟩
    trivial
  · rintro e after _ hafter _ _ ⟨⟩
    -- The commit has failed, so the ids that were cleared are still the domain's.
    cases wasExempted with
    | false => trivial
    | true =>
      cases ids with
      | none => trivial
      | some ids =>
        refine obeys_attempt_bind_of_forall
          (obeys_attempt_lift (obeys_ask ⟨domain, ids, hafter.state ▸ hids, rfl⟩)) ?_
        rintro (refusal | ⟨⟨⟩⟩) last
        · exact obeys_attempt_bind_of_forall (obeys_attempt_lift (obeys_ask trivial))
            fun _ _ => trivial
        · trivial

theorem obeys_unexempt (htable : config.idScheme = .table) (hquiet : regime.Quiet) :
    Obeys regime (Lawful config) (unexempt config domain).run w := by
  unfold unexempt
  refine obeys_loadState_bind hquiet fun read hread => ?_
  have hids : (knownIds? config w.state domain).or
      (if w.state.isExempted domain then some (.hashed domain) else none)
        = touchedIds w.state domain :=
    blockedIds_of_table htable w.state domain
  simp only [hids]
  have hcommit : ∀ after, after.state = w.state → Obeys regime (Lawful config)
      (commitBlocked config domain (w.state.isExempted domain) (touchedIds w.state domain)).run
      after :=
    fun after hafter => obeys_commitBlocked hquiet _ (by rw [hafter])
  cases htouched : touchedIds w.state domain with
  | none =>
    rw [htouched] at hcommit
    exact hcommit read hread.state
  | some ids =>
    rw [htouched] at hcommit
    refine obeys_attempt_bind (obeys_onEngine (obeys_ask trivial)) ?_
    rw [guarantees_onEngine]
    refine guarantees_removeRules ?_ ?_ fun _ _ _ => trivial
    · rintro after hafter _ _ -
      exact hcommit after (hafter.state.trans hread.state)
    · rintro e after _ _ _ _ ⟨⟩

theorem obeys_toggle (htable : config.idScheme = .table) (hquiet : regime.Quiet) (blocked : Bool) :
    Obeys regime (Lawful config) (toggle config domain blocked).run w := by
  rw [toggle]
  split
  · exact obeys_unexempt htable hquiet
  · exact obeys_exempt htable hquiet

/-! ## Restorations -/

theorem obeys_reconcileRuleset (enabled : Bool) :
    Obeys regime (Lawful config) (reconcileRuleset config enabled).run w := by
  refine obeys_attempt_bind_of_forall (obeys_onEngine (obeys_ask trivial)) fun active after => ?_
  split
  · trivial
  · refine obeys_attempt_bind_of_forall (obeys_onEngine (obeys_setRuleset ..)) fun _ _ => ?_
    exact obeys_attempt_bind_of_forall (obeys_attempt_lift (obeys_ask trivial)) fun _ _ => trivial

theorem obeys_restoreDomain (htable : config.idScheme = .table) (hquiet : regime.Quiet) :
    Obeys regime (Lawful config) (restoreDomain config domain).run w := by
  unfold restoreDomain
  refine obeys_loadState_bind hquiet fun read _ => ?_
  split
  · trivial
  refine obeys_attempt_bind (obeys_idsForInstall htable hquiet)
    (guarantees_idsForInstall htable hquiet ?_ ?_ ?_ fun _ _ _ => trivial)
  · rintro ids stale state after hgranted hafter _ ⟨⟩
    refine obeys_attempt_bind_of_forall (obeys_attempt_lift (obeys_installPair ?_)) ?_
    · rw [hafter.state]
      exact touchedIds_of_get?_eq_some hgranted.get?_self
    · rintro (failure | ⟨⟨⟩⟩) last
      · trivial
      · trivial
  · rintro e after _ _ _ _ ⟨⟩
  · rintro e after _ _ _ _ ⟨⟩

theorem obeys_restoreNext (htable : config.idScheme = .table) (hquiet : regime.Quiet)
    (report : RestoreReport) :
    Obeys regime (Lawful config) (restoreNext config report domain) w := by
  refine obeys_bind_of_forall (obeys_restoreDomain htable hquiet) fun result after => ?_
  match result with
  | .ok true => trivial
  | .ok false => trivial
  | .error e => exact obeys_bind_of_forall (obeys_ask trivial) fun _ _ => trivial

theorem obeys_clearNext (hquiet : regime.Quiet) (report : RestoreReport) :
    Obeys regime (Lawful config) (clearNext report domain) w := by
  have hclear : Obeys regime (Lawful config) (clearDomain domain).run w := by
    refine obeys_loadState_bind hquiet fun read _ => ?_
    cases w.state.overrideIds.get? domain with
    | none => trivial
    | some ids =>
      simp only
      split
      · trivial
      · exact obeys_attempt_bind_of_forall (obeys_onEngine (obeys_ask trivial)) fun _ _ => trivial
  refine obeys_bind_of_forall hclear fun result after => ?_
  match result with
  | .ok true => trivial
  | .ok false => trivial
  | .error e => exact obeys_bind_of_forall (obeys_ask trivial) fun _ _ => trivial

theorem obeys_restoreAll (htable : config.idScheme = .table) (hquiet : regime.Quiet) :
    Obeys regime (Lawful config) (restoreAll config).run w := by
  refine obeys_loadState_bind hquiet fun read _ => ?_
  refine obeys_attempt_bind_of_forall (obeys_reconcileRuleset _) fun reconciled after => ?_
  refine obeys_attempt_bind_of_forall (obeys_attempt_lift (obeys_foldlM ?_ ..)) fun report _ => ?_
  · exact fun report domain _ => obeys_restoreNext htable hquiet report
  · exact obeys_attempt_lift
      (obeys_foldlM (fun report domain _ => obeys_clearNext hquiet report) ..)

/-! ## Operations -/

-- Otherwise the elaborator tries to compute the name of an unknown input.
attribute [local irreducible] Manager.domainOf

theorem obeys_setDomainBlocking {manager : Manager} (htable : manager.config.idScheme = .table)
    (hquiet : regime.Quiet) (input : String) (blocked : Bool) :
    Obeys regime (Lawful manager.config) (manager.setDomainBlocking input blocked) w := by
  cases hdomain : Manager.domainOf input with
  | error e =>
    rw [setDomainBlocking_of_error hdomain]
    trivial
  | ok domain =>
    rw [setDomainBlocking_of_ok hdomain]
    exact obeys_bind_of_forall (obeys_toggle htable hquiet blocked) fun _ _ => trivial

/-- Every operation conducts itself, from every world and whatever its calls are answered. -/
theorem obeys_program {manager : Manager} (htable : manager.config.idScheme = .table)
    (hquiet : regime.Quiet) (operation : Operation) :
    Obeys regime (Lawful manager.config) (operation.program manager) w := by
  cases operation with
  | toggle input blocked =>
    exact obeys_bind_of_forall (obeys_setDomainBlocking htable hquiet input blocked)
      fun _ _ => trivial
  | toggleWithin input blocked milliseconds =>
    refine obeys_bind_of_forall (obeys_bind_of_forall
      (obeys_setDomainBlocking htable hquiet input blocked).bounded ?_) fun _ _ => trivial
    rintro (_ | outcome) after
    · exact obeys_bind_of_forall (obeys_ask trivial) fun _ _ => trivial
    · trivial
  | setGlobal enabled =>
    refine obeys_bind_of_forall (obeys_bind_of_forall ?_ ?_) fun _ _ => trivial
    · refine obeys_attempt_bind_of_forall (obeys_onEngine (obeys_setRuleset ..)) fun _ _ => ?_
      exact obeys_attempt_bind_of_forall (obeys_update hquiet fun now => .switched enabled now)
        fun _ _ => trivial
    · rintro (e | ⟨⟨⟩⟩) after
      · trivial
      · trivial
  | restore =>
    refine obeys_bind_of_forall (obeys_bind_of_forall (obeys_restoreAll htable hquiet) ?_)
      fun _ _ => trivial
    rintro (e | report) after
    · trivial
    · trivial
  | status =>
    refine obeys_bind_of_forall (obeys_bind_of_forall (obeys_ask trivial) fun now asked => ?_)
      fun _ _ => trivial
    cases manager.statusCache.get? now.toNat with
    | some status => trivial
    | none =>
      refine obeys_bind_of_forall ?_ ?_
      · refine obeys_attempt_bind_of_forall obeys_loadState fun _ _ => ?_
        exact obeys_attempt_bind_of_forall (obeys_onEngine (obeys_ask trivial)) fun _ _ => trivial
      · rintro (e | status) after
        · trivial
        · exact obeys_bind_of_forall (obeys_ask trivial) fun _ _ => trivial

end

/-! ## Effects -/

/-- What a lawful call can do to the engine and the state. -/
inductive Effect (config : Config) (engine : Engine) (state : PersistedState) :
    Engine → PersistedState → Prop where
  | nothing : Effect config engine state engine state
  | switched (ruleset : String) (on : Bool) :
      Effect config engine state (switched engine ruleset on) state
  | removed (ids : List UInt32) : Effect config engine state (engine.removeRules ids) state
  | added {domain : String} {ids : IdPair} {after : Engine} : touchedIds state domain = some ids →
      engine.addRules (pairRules config domain ids) = .ok after →
      Effect config engine state after state
  | committed {after : PersistedState} : Evolves config state after →
      Effect config engine state engine after

section

variable {regime : Regime} {config : Config} {w after : World}

/-- A call on the engine does to it what it says, or nothing. -/
theorem EngineAnswers.effect {α : Type} {act : Engine → Except EngineError α × Engine}
    {reply : Option (Except EngineError α)} (h : EngineAnswers regime act w reply after)
    (hact : Effect config w.engine w.state (act w.engine).2 w.state) :
    Effect config w.engine w.state after.engine after.state := by
  cases h with
  | hang => exact .nothing
  | fail => exact .nothing
  | done => exact hact

theorem effect_switchRuleset (engine : Engine) (ruleset : String) (on : Bool)
    (state : PersistedState) :
    Effect config engine state (engine.switchRuleset ruleset on).2 state := by
  rcases engine.switchRuleset_cases ruleset on with ⟨-, hcall⟩ | ⟨-, hcall⟩
  · rw [hcall]
    exact .switched ruleset on
  · rw [hcall]
    exact .nothing

/-- A lawful call does nothing else than its effects, whatever it is answered. -/
theorem Lawful.effect {c : Call} {reply : Option c.Answer} (h : Lawful config w c)
    (hquiet : regime.Quiet) (hanswer : Answers regime w c reply after) :
    Effect config w.engine w.state after.engine after.state := by
  cases c with
  | enableRuleset ruleset => exact EngineAnswers.effect hanswer (effect_switchRuleset ..)
  | disableRuleset ruleset => exact EngineAnswers.effect hanswer (effect_switchRuleset ..)
  | addRules rules =>
    obtain ⟨domain, ids, hids, rfl⟩ := h
    refine EngineAnswers.effect hanswer ?_
    rcases w.engine.addSessionRules_cases (pairRules config domain ids) with
      ⟨engine, hadd, hcall⟩ | ⟨e, -, hcall⟩
    · rw [hcall]
      exact .added hids hadd
    · rw [hcall]
      exact .nothing
  | removeRules ids => exact EngineAnswers.effect hanswer (.removed ids)
  | enabledRulesets => exact EngineAnswers.effect hanswer .nothing
  | load =>
    cases hanswer with
    | hang => exact .nothing
    | fail => exact .nothing
    | done => exact .nothing
    | @outside change houtside =>
      have hstate : (changed change w.stored).state = w.state := hquiet change houtside w.state
      show Effect config w.engine w.state w.engine (changed change w.stored).state
      rw [hstate]
      exact .nothing
  | commit expected state =>
    obtain ⟨rfl, hevolves⟩ := h
    cases hanswer with
    | hang => exact .nothing
    | fail => exact .nothing
    | done =>
      rw [replace_current]
      exact .committed hevolves
    | @outside change houtside =>
      have hstate : (changed change w.stored).state = w.state := hquiet change houtside w.state
      rw [replace_changed]
      show Effect config w.engine w.state w.engine (changed change w.stored).state
      rw [hstate]
      exact .nothing
  | clock =>
    obtain ⟨-, rfl⟩ := hanswer
    exact .nothing
  | warn warning =>
    obtain ⟨-, rfl⟩ := hanswer
    exact .nothing

end

end Blocklist.Override
