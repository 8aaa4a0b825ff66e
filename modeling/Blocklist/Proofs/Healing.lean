import Blocklist.Proofs.Mirror
import Blocklist.Proofs.Operation

set_option autoImplicit false

/-! # A restoration heals what failures left behind

Failed operations leave pairs in the engine that the state does not tell of, and exempted domains
without their rules. They never leave a rule outside the pairs of the table, nor an exempted domain
without a pair (`Healable`): every operation keeps to that at every call at which it can fail or
hang. That is all that a restoration without failures needs to bring the engine back in line
(`restore_heals`). -/

namespace Blocklist.Override

/-- What no failure breaks: rules stand at pairs of the table only, and every exempted domain has
one. -/
structure Healable (config : Config) (engine : Engine) (state : PersistedState) : Prop where
  wellFormed : state.overrideIds.WellFormed
  covered : Covered state
  owned : ∀ id rule, engine.rule? id = some rule →
    ∃ domain ids, state.overrideIds.get? domain = some ids ∧ id ∈ ids.toList
  known : engine.rulesets.contains config.rulesetId = true

section

variable {config : Config} {engine engine' : Engine} {state state' : PersistedState}
  {domain : String} {ids : IdPair} {stale : Option IdPair}

namespace Healable

theorem granted (h : Healable config engine state)
    (hgranted : Granted config domain state ids stale state') : Healable config engine state' where
  wellFormed := hgranted.wellFormed h.wellFormed
  covered := h.covered.granted hgranted
  owned := by
    intro id rule hrule
    obtain ⟨other, p, hp, hid⟩ := h.owned id rule hrule
    exact ⟨other, p, hgranted.get?_of_eq_some hp, hid⟩
  known := h.known

theorem removeRules (h : Healable config engine state) (removed : List UInt32) :
    Healable config (engine.removeRules removed) state where
  wellFormed := h.wellFormed
  covered := h.covered
  owned := by
    intro id rule hrule
    rw [Engine.rule?_removeRules] at hrule
    split at hrule
    · cases hrule
    · exact h.owned id rule hrule
  known := h.known

theorem installed (h : Healable config engine state)
    (hids : state.overrideIds.get? domain = some ids)
    (hinstalled : Installed config domain ids stale engine engine') :
    Healable config engine' state where
  wellFormed := h.wellFormed
  covered := h.covered
  owned := by
    intro id rule hrule
    rcases (hinstalled.rule?_iff id rule).1 hrule with ⟨hmem, rfl⟩ | ⟨-, hrule⟩
    · exact ⟨domain, ids, hids, id_mem_of_mem_pairRules hmem⟩
    · exact h.owned id rule hrule
  known := hinstalled.rulesets ▸ h.known

/-- The exemptions may change, as long as new ones have a pair. -/
theorem of_exempted (h : Healable config engine state)
    (htable : state'.overrideIds = state.overrideIds)
    (hexempted : ∀ other, state'.isExempted other = true →
      state.isExempted other = true ∨ ∃ p, state.overrideIds.get? other = some p) :
    Healable config engine state' where
  wellFormed := htable ▸ h.wellFormed
  covered := by
    intro other hother
    rw [htable]
    exact (hexempted other hother).elim (h.covered other) id
  owned := htable ▸ h.owned
  known := h.known

theorem addExemption (h : Healable config engine state)
    (hids : state.overrideIds.get? domain = some ids) (now : UInt64) :
    Healable config engine ((state.addExemption domain).touch now) := by
  refine h.of_exempted (PersistedState.overrideIds_addExemption ..) fun other hother => ?_
  rw [PersistedState.isExempted_touch, PersistedState.isExempted_addExemption] at hother
  exact hother.symm.imp_right fun heq => ⟨ids, by rw [heq, hids]⟩

theorem removeExemption (h : Healable config engine state) (domain : String) (now : UInt64) :
    Healable config engine ((state.removeExemption domain).touch now) := by
  refine h.of_exempted rfl fun other hother => Or.inl ?_
  rw [PersistedState.isExempted_touch, PersistedState.isExempted_removeExemption] at hother
  exact hother.2

theorem switched (h : Healable config engine state) (on : Bool) :
    Healable config (switched engine config.rulesetId on) state where
  wellFormed := h.wellFormed
  covered := h.covered
  owned := h.owned
  known := by simp [Override.switched]

end Healable

end

/-! ## Every operation keeps to it -/

section

variable {regime : Regime} {config : Config} {domain : String} {w after : World}

theorem World.Becomes.healable {engine : Engine} {state : PersistedState}
    (h : w.Becomes engine state after) (hhealable : Healable config engine state) :
    Healable config after.engine after.state := by
  rw [h.engine, h.state]
  exact hhealable

theorem GrantedOutcome.healable {ids : IdPair} {stale : Option IdPair} {state : PersistedState}
    {result : Except OverrideError Transition} (h : Healable config w.engine w.state)
    (hgranted : Granted config domain w.state ids stale state)
    (hend : GrantedOutcome regime config domain w ids stale state result after) :
    Healable config after.engine after.state := by
  have hstate := h.granted hgranted
  have hids := hgranted.get?_self
  cases hend with
  | untouched _ _ hafter _ => exact hafter.healable hstate
  | cleared _ hafter _ => exact hafter.healable (hstate.removeRules _)
  | dropped now _ hafter _ _ =>
    exact hafter.healable ((hstate.removeRules _).removeExemption domain now)
  | undropped _ hafter _ _ _ => exact hafter.healable (hstate.removeRules _)
  | kept _ _ hinstalled hafter _ => exact hafter.healable (hstate.installed hids hinstalled)
  | withdrawn _ _ hinstalled hafter _ =>
    exact hafter.healable ((hstate.installed hids hinstalled).removeRules _)
  | stranded _ _ _ hinstalled hafter _ _ _ =>
    exact hafter.healable (hstate.installed hids hinstalled)
  | done now hinstalled hafter =>
    exact hafter.healable ((hstate.installed hids hinstalled).addExemption hids now)

theorem ExemptOutcome.healable {result : Except OverrideError Transition}
    (h : Healable config w.engine w.state)
    (hend : ExemptOutcome regime config domain w result after) :
    Healable config after.engine after.state := by
  cases hend with
  | refused _ _ hafter => exact hafter.healable h
  | failed _ _ hafter => exact hafter.healable h
  | granted hgranted hend => exact hend.healable h hgranted

theorem GrantedHalt.healable {ids : IdPair} {stale : Option IdPair} {state : PersistedState}
    (h : Healable config w.engine w.state)
    (hgranted : Granted config domain w.state ids stale state)
    (hhalt : GrantedHalt config domain w ids stale state after) :
    Healable config after.engine after.state := by
  have hstate := h.granted hgranted
  cases hhalt with
  | granted hafter => exact hafter.healable hstate
  | cleared hafter => exact hafter.healable (hstate.removeRules _)
  | installed hinstalled hafter =>
    exact hafter.healable (hstate.installed hgranted.get?_self hinstalled)

theorem ExemptHalt.healable (h : Healable config w.engine w.state)
    (hhalt : ExemptHalt config domain w after) : Healable config after.engine after.state := by
  cases hhalt with
  | before hafter => exact hafter.healable h
  | granted hgranted hhalt => exact hhalt.healable h hgranted

theorem UnexemptOutcome.healable {result : Except OverrideError Transition}
    (h : Healable config w.engine w.state)
    (hend : UnexemptOutcome regime config domain w (touchedIds w.state domain) result after) :
    Healable config after.engine after.state := by
  cases hend with
  | failed _ _ hafter _ => exact hafter.healable h
  | uncommitted _ _ hafter _ => exact hafter.healable (h.removeRules _)
  | reinstated _ _ htouched hinstalled hafter _ =>
    rw [h.covered.touchedIds_eq] at htouched
    exact hafter.healable (h.installed htouched hinstalled)
  | lost _ _ _ _ hafter _ _ => exact hafter.healable (h.removeRules _)
  | done now hafter =>
    exact hafter.healable ((h.removeRules _).removeExemption domain now)

theorem UnexemptHalt.healable {cleared : Option IdPair} (h : Healable config w.engine w.state)
    (hhalt : UnexemptHalt w cleared after) : Healable config after.engine after.state := by
  cases hhalt with
  | before hafter => exact hafter.healable h
  | removed hafter => exact hafter.healable (h.removeRules _)

theorem RestoreOutcome.healable {result : Except OverrideError Bool}
    (h : Healable config w.engine w.state)
    (hend : RestoreOutcome regime config domain w result after) :
    Healable config after.engine after.state := by
  cases hend with
  | skipped _ hafter => exact hafter.healable h
  | refused _ _ _ hafter => exact hafter.healable h
  | failed _ _ hafter => exact hafter.healable h
  | untouched _ _ hgranted _ hafter _ => exact hafter.healable (h.granted hgranted)
  | cleared _ _ hgranted _ hafter =>
    exact hafter.healable ((h.granted hgranted).removeRules _)
  | done _ hgranted hinstalled hafter =>
    exact hafter.healable ((h.granted hgranted).installed hgranted.get?_self hinstalled)

theorem ClearOutcome.healable {result : Except OverrideError Bool}
    (h : Healable config w.engine w.state)
    (hend : ClearOutcome regime domain w result after) :
    Healable config after.engine after.state := by
  cases hend with
  | skipped _ hafter => exact hafter.healable h
  | failed _ _ hafter => exact hafter.healable h
  | done _ _ hafter => exact hafter.healable (h.removeRules _)

theorem ReconcileOutcome.healable {enabled : Bool} {result : Except OverrideError Bool}
    (h : Healable config w.engine w.state)
    (hend : ReconcileOutcome regime config enabled w result after) :
    Healable config after.engine after.state := by
  cases hend with
  | agreed _ hafter => exact hafter.healable h
  | failed _ _ hafter => exact hafter.healable h
  | done hafter => exact hafter.healable (h.switched enabled)

end

-- Otherwise the elaborator tries to compute the name of an unknown input.
attribute [local irreducible] Manager.domainOf

section

variable {regime : Regime} {halted : World → Prop} {w : World}

theorem guarantees_toggle_healable {config : Config} {domain : String} {blocked : Bool}
    (htable : config.idScheme = .table) (hquiet : regime.Quiet)
    (h : Healable config w.engine w.state) {post : Except OverrideError Transition → World → Prop}
    (hend : ∀ result after, Healable config after.engine after.state → post result after)
    (hhalted : ∀ after, regime.hangs → Healable config after.engine after.state → halted after) :
    Guarantees regime halted (toggle config domain blocked).run w post := by
  rw [toggle]
  split
  · exact guarantees_unexempt htable hquiet
      (fun result after hout => hend result after (hout.healable h))
      fun after hhangs hhalt => hhalted after hhangs (hhalt.healable h)
  · exact guarantees_exempt htable hquiet
      (fun result after hout => hend result after (hout.healable h))
      fun after hhangs hhalt => hhalted after hhangs (hhalt.healable h)

theorem guarantees_restoreAll_healable {config : Config} (htable : config.idScheme = .table)
    (hquiet : regime.Quiet) (hanswered : ¬ regime.hangs) (h : Healable config w.engine w.state) :
    Guarantees regime halted (restoreAll config).run w fun _ after =>
      Healable config after.engine after.state :=
  guarantees_restoreAll htable hquiet hanswered
    (fun _ _ u => Healable config u.engine u.state) (fun _ _ u => Healable config u.engine u.state)
    (fun _ _ _ hafter => hafter.healable h)
    (fun _ _ hout => hout.healable h)
    (fun _ _ _ _ _ _ hu hout => hout.healable hu)
    (fun _ _ hu => hu)
    (fun _ _ _ _ _ _ hu hout => hout.healable hu)
    (fun _ _ hu => hu)

/-- No operation breaks it, at whatever call it fails or is given up. -/
theorem guarantees_program_healable {manager : Manager} {operation : Operation}
    (htable : manager.config.idScheme = .table) (h : Healable manager.config w.engine w.state) :
    Guarantees (.rough (operation.isTimed = true)) (fun _ => False) (operation.program manager) w
      fun manager' after => manager'.config = manager.config
        ∧ Healable manager.config after.engine after.state := by
  have hquiet := Regime.quiet_rough (operation.isTimed = true)
  cases operation with
  | toggle input blocked =>
    rw [Operation.program, guarantees_bind]
    cases hdomain : Manager.domainOf input with
    | error e =>
      rw [setDomainBlocking_of_error hdomain]
      exact ⟨rfl, h⟩
    | ok domain =>
      rw [guarantees_setDomainBlocking hdomain]
      exact guarantees_toggle_healable htable hquiet h (fun _ _ hafter => ⟨rfl, hafter⟩)
        fun _ hhangs _ => nomatch hhangs
  | toggleWithin input blocked milliseconds =>
    rw [Operation.program, guarantees_bind]
    cases hdomain : Manager.domainOf input with
    | error e => exact guarantees_setDomainBlockingWithin_of_error hdomain ⟨rfl, h⟩
    | ok domain =>
      refine guarantees_setDomainBlockingWithin hdomain ?_
      exact guarantees_toggle_healable htable hquiet h (fun _ _ hafter => ⟨rfl, hafter⟩)
        fun _ _ hhung after hafter => ⟨rfl, hafter.healable hhung⟩
  | setGlobal enabled =>
    rw [Operation.program, guarantees_bind]
    refine guarantees_setGlobalEnabled hquiet nofun fun result after hout => ?_
    refine ⟨manager.config_forgetIfOk result, ?_⟩
    cases hout with
    | refused _ _ hafter => exact hafter.healable h
    | unpersisted _ _ hafter => exact hafter.healable (h.switched enabled)
    | done now hafter =>
      exact hafter.healable ((h.switched enabled).of_exempted rfl fun _ hother => Or.inl hother)
  | restore =>
    rw [Operation.program, guarantees_bind]
    refine guarantees_restore
      (Guarantees.imp (guarantees_restoreAll_healable htable hquiet nofun h) ?_)
    intro result after hafter
    cases result with
    | ok report => exact ⟨rfl, hafter⟩
    | error e => exact ⟨rfl, hafter⟩
  | status =>
    rw [Operation.program, guarantees_bind]
    exact guarantees_status hquiet nofun (fun _ _ _ _ hafter => ⟨rfl, hafter.healable h⟩)
      (fun _ _ hafter => ⟨rfl, hafter.healable h⟩) fun _ _ _ hafter => ⟨rfl, hafter.healable h⟩

end

/-! ## A restoration without failures -/

/-- How far a restoration of the state `s` has come that has the exempted domains `left` still to
restore and the domains `strays` still to clear. -/
structure Healing (config : Config) (s : PersistedState) (left strays : List String)
    (report : RestoreReport) (u : World) : Prop where
  state : u.state = s
  failed : report.failed = []
  healable : Healable config u.engine s
  enabled : u.engine.isEnabled config.rulesetId = s.enabled
  installed : ∀ {domain ids}, Owns s domain ids → domain ∉ left → ∀ id ∈ ids.toList, ∀ rule,
    u.engine.rule? id = some rule ↔ rule ∈ pairRules config domain ids ∧ rule.id = id
  cleared : ∀ {domain ids}, s.isExempted domain = false →
    s.overrideIds.get? domain = some ids → domain ∉ strays → ∀ id ∈ ids.toList,
    u.engine.rule? id = none

section

variable {config : Config} {s : PersistedState} {domain : String} {rest left strays : List String}
  {report : RestoreReport} {u v : World}

theorem isEnabled_eq_of_rulesets_eq {engine engine' : Engine} (ruleset : String)
    (h : engine'.rulesets = engine.rulesets) :
    engine'.isEnabled ruleset = engine.isEnabled ruleset := by
  rw [Engine.isEnabled, Engine.isEnabled, h]

/-- At the start nothing is restored and nothing cleared. -/
theorem Healing.start {w : World} {reconciled : Bool} (h : Healable config w.engine w.state)
    (hout : ReconcileOutcome .calm config w.state.enabled w (.ok reconciled) v) :
    Healing config w.state w.state.exemptedDomains (strayDomains w.state) ⟨[], [], [], reconciled⟩
      v := by
  have hhealable := hout.healable h
  have hfinal : v.state = w.state
      ∧ v.engine.isEnabled config.rulesetId = w.state.enabled := by
    cases hout with
    | agreed hagreed hafter => exact ⟨hafter.state, by rw [hafter.engine, hagreed]⟩
    | done hafter => exact ⟨hafter.state, by rw [hafter.engine, isEnabled_switched]⟩
  refine ⟨hfinal.1, rfl, hfinal.1 ▸ hhealable, hfinal.2, ?_, ?_⟩
  · intro domain ids howns hleft
    exact absurd (List.contains_iff_mem.1 howns.1) hleft
  · intro domain ids hexempted hids hstrays
    exact absurd (mem_strayDomains.2 ⟨⟨ids, hids⟩, hexempted⟩) hstrays

/-- The rules of an exempted domain are installed; those of the others are left alone. -/
theorem Healing.installs {ids : IdPair} {engine : Engine}
    (h : Healing config s (domain :: rest) strays report u) (howns : Owns s domain ids)
    (hinstalled : Installed config domain ids none u.engine engine)
    (hafter : u.Becomes engine s v) :
    Healing config s rest strays (report.next domain (.ok true)) v := by
  have hw := h.healable.wellFormed
  have hhealable := h.healable.installed howns.2 hinstalled
  have hkept : ∀ {other p}, s.overrideIds.get? other = some p → other ≠ domain → ∀ id ∈ p.toList,
      engine.rule? id = u.engine.rule? id := by
    intro other p hp hne id hid
    have hapart := hw.disjoint hp howns.2 hne id hid
    exact hinstalled.rule?_of_not_mem (by rwa [clearedIds_none])
  refine ⟨hafter.state, h.failed, hafter.engine ▸ hhealable, ?_, ?_, ?_⟩
  · rw [hafter.engine, isEnabled_eq_of_rulesets_eq _ hinstalled.rulesets]
    exact h.enabled
  · intro other p hother hleft id hid
    rw [hafter.engine]
    by_cases heq : other = domain
    · subst heq
      obtain rfl : p = ids := Option.some.inj (hother.2.symm.trans howns.2)
      exact hinstalled.rule?_of_mem hid
    · have hpending : other ∉ domain :: rest := by simp [heq, hleft]
      rw [hkept hother.2 heq id hid]
      exact h.installed hother hpending id hid
  · intro other p hother hp hstrays id hid
    have hne : other ≠ domain := by
      rintro rfl
      cases hother.symm.trans howns.1
    rw [hafter.engine, hkept hp hne id hid]
    exact h.cleared hother hp hstrays id hid

/-- An exempted domain gets its rules, and a domain that is not exempted is passed over. -/
theorem Healing.restored {result : Except OverrideError Bool}
    (h : Healing config s (domain :: rest) strays report u)
    (hout : RestoreOutcome .calm config domain u result v) :
    Healing config s rest strays (report.next domain result) v := by
  have hstate := h.state
  have hw := h.healable.wellFormed
  rcases hout.of_calm (hstate ▸ hw) with ⟨rfl, hexempted, hafter⟩ | ⟨e, -, hexempted, hnew, -⟩
    | ⟨ids, stale, state, engine, rfl, hexempted, hgranted, hinstalled, hafter⟩
  · rw [hstate] at hexempted
    refine ⟨hafter.state.trans hstate, h.failed, hafter.engine ▸ h.healable,
      hafter.engine ▸ h.enabled, ?_, hafter.engine ▸ h.cleared⟩
    intro other p howns hleft
    rw [hafter.engine]
    refine h.installed howns ?_
    rw [List.mem_cons, not_or]
    refine ⟨?_, hleft⟩
    rintro rfl
    cases hexempted.symm.trans howns.1
  · -- No exempted domain asks for a pair, since each has one.
    rw [hstate] at hexempted hnew
    obtain ⟨p, hp⟩ := h.healable.covered domain hexempted
    cases hnew.symm.trans hp
  · rw [hstate] at hexempted hgranted
    obtain ⟨p, hids⟩ := h.healable.covered domain hexempted
    obtain ⟨rfl, rfl, rfl⟩ := hgranted.eq_of_get?_eq_some hids
    exact h.installs ⟨hexempted, hids⟩ hinstalled hafter

/-- A stray domain loses its rules and leaves those of the others alone. -/
theorem Healing.strayCleared {result : Except OverrideError Bool} {removed : List String}
    (h : Healing config s [] (domain :: rest) report u)
    (hout : ClearOutcome .calm domain u result v) :
    Healing config s [] rest { report with removed } v := by
  have hstate := h.state
  cases hout with
  | skipped hskip hafter =>
    rw [hstate] at hskip
    refine ⟨hafter.state.trans hstate, h.failed, hafter.engine ▸ h.healable,
      hafter.engine ▸ h.enabled, hafter.engine ▸ h.installed, ?_⟩
    intro other p hother hp hstrays
    rw [hafter.engine]
    refine h.cleared hother hp ?_
    rw [List.mem_cons, not_or]
    refine ⟨?_, hstrays⟩
    rintro rfl
    rcases hskip with hnone | hexempted
    · cases hnone.symm.trans hp
    · cases hexempted.symm.trans hother
  | failed _ hdisturbs _ => exact absurd hdisturbs Regime.not_disturbs_calm
  | @done ids _ hids hexempted hafter =>
    -- The domain is not exempted, so its pair is apart from all that is to stay.
    rw [hstate] at hids hexempted
    refine ⟨hafter.state.trans hstate, h.failed, hafter.engine ▸ h.healable.removeRules _,
      hafter.engine ▸ h.enabled, ?_, ?_⟩
    · intro other p howns hleft id hid rule
      have hne : other ≠ domain := by
        rintro rfl
        cases hexempted.symm.trans howns.1
      have hapart := h.healable.wellFormed.disjoint howns.2 hids hne id hid
      rw [hafter.engine, Engine.rule?_removeRules, if_neg hapart]
      exact h.installed howns hleft id hid rule
    · intro other p hother hp hstrays id hid
      rw [hafter.engine, Engine.rule?_removeRules]
      split
      · rfl
      · rename_i hkept
        refine h.cleared hother hp ?_ id hid
        rw [List.mem_cons, not_or]
        refine ⟨?_, hstrays⟩
        rintro rfl
        obtain rfl : p = ids := Option.some.inj (hp.symm.trans hids)
        exact hkept hid

/-- When nothing is left to do, the engine mirrors the state. -/
theorem Healing.mirrors (h : Healing config s [] [] report u) : Mirrors config u.engine s := by
  intro id rule
  constructor
  · intro hrule
    -- Every rule stands at a pair, and all pairs are restored or cleared.
    obtain ⟨domain, ids, hids, hid⟩ := h.healable.owned id rule hrule
    cases hexempted : s.isExempted domain with
    | true =>
      have hpair := (h.installed ⟨hexempted, hids⟩ List.not_mem_nil id hid rule).1 hrule
      exact ⟨domain, ids, ⟨hexempted, hids⟩, hpair⟩
    | false => cases hrule.symm.trans (h.cleared hexempted hids List.not_mem_nil id hid)
  · rintro ⟨domain, ids, howns, hrule, rfl⟩
    have hid := id_mem_of_mem_pairRules hrule
    exact (h.installed howns List.not_mem_nil rule.id hid rule).2 ⟨hrule, rfl⟩

theorem guarantees_restore_healing {manager : Manager} {w : World}
    (htable : manager.config.idScheme = .table) (h : Healable manager.config w.engine w.state) :
    Guarantees .calm (fun _ => False) manager.restore w fun outcome after =>
      ∃ report, outcome = (.ok report, manager.forget)
        ∧ Healing manager.config w.state [] [] report after := by
  refine guarantees_restore (guarantees_restoreAll htable Regime.quiet_calm id
    (fun left report u => Healing manager.config w.state left (strayDomains w.state) report u)
    (fun strays report u => Healing manager.config w.state [] strays report u)
    ?_ ?_ ?_ ?_ ?_ ?_)
  · intro e after hcause _
    exact hcause.elim (absurd · Regime.not_disturbs_calm) (absurd h.known ·)
  · intro reconciled after hout
    exact .start h hout
  · intro domain rest report u result v hu hout
    exact hu.restored hout
  · intro report u hu
    exact hu
  · intro domain rest report u result v hu hout
    exact hu.strayCleared hout
  · intro report after hafter
    exact ⟨report, rfl, hafter⟩

end

/-- After any run of operations, each of whose calls may fail, lose to somebody who commits the
state as it is, or, in a toggle with a timeout, stay without an answer, a restoration without
failures succeeds: the engine then holds the pairs of the exempted domains and nothing else, the
ruleset is as the switch says, and the state is as it was. -/
theorem restore_heals {view : Store.View} {manager : Manager} {env : Environment} {v : Versioned}
    {steps : List Step} {schedule : Schedule} (time : UInt64)
    (htable : manager.config.idScheme = .table) (hholds : view.Holds env.store v)
    (hwellFormed : v.state.overrideIds.WellFormed) (hcovered : Covered v.state)
    (hempty : ∀ id, env.engine.rule? id = none)
    (hknown : env.engine.rulesets.contains manager.config.rulesetId = true)
    (hsteps : ∀ step ∈ steps,
      (Regime.rough (step.operation.isTimed = true)).Admits step.schedule)
    (hcalm : Regime.calm.Admits schedule) :
    ∃ manager' env' v' report last v'',
      runAll steps manager env = some (manager', env')
      ∧ view.Holds env'.store v'
      ∧ (env'.at time schedule).run manager'.restore = (some (.ok report, manager'.forget), last)
      ∧ report.failed = []
      ∧ Covered v'.state
      ∧ Mirrors manager.config last.engine v'.state
      ∧ last.engine.isEnabled manager.config.rulesetId = v'.state.enabled
      ∧ view.Holds last.store v''
      ∧ v''.state = v'.state := by
  have hstart : Healable manager.config env.engine v.state := by
    refine ⟨hwellFormed, hcovered, ?_, hknown⟩
    intro id rule hrule
    cases (hempty id).symm.trans hrule
  -- Managers forget their caches on the way, but they keep their configuration.
  obtain ⟨manager', env', v', hrun, hheld, hconfig, hhealable⟩ :=
    exists_runAll (fun m engine state => m.config = manager.config
        ∧ Healable manager.config engine state) hsteps
      (fun step _ m w hm => (guarantees_program_healable (hm.1 ▸ htable)
        (hm.1 ▸ hm.2)).imp fun _ _ h => ⟨h.1.trans hm.1, hm.1 ▸ h.2⟩)
      hholds ⟨rfl, hstart⟩
  obtain ⟨outcome, last, v'', hlast, hheld', report, rfl, hhealing⟩ :=
    Guarantees.exists_run (env'.at time schedule) (v := v')
      (guarantees_restore_healing (hconfig ▸ htable) (hconfig ▸ hhealable)) hheld hcalm
  rw [hconfig] at hhealing
  exact ⟨manager', env', v', report, last, v'', hrun, hheld, hlast, hhealing.failed,
    hhealable.covered, hhealing.mirrors, hhealing.enabled, hheld', hhealing.state⟩

/-- A new manager loses the commit of one exemption and hangs in another. -/
theorem restore_heals_lost_and_hung :
    ∃ manager' env' v' report last v'',
      runAll
        [⟨.toggle "a.com" false, 0, Schedule.faultless.set .commit [.none, .unavailable]⟩,
          ⟨.toggleWithin "b.com" false 5000, 0, Schedule.faultless.set .addRules [.hang]⟩]
        ⟨.standard, .new 1000⟩ ⟨.withRulesets ["ruleset_1"], .memory .empty, 0, .faultless, []⟩
          = some (manager', env')
      ∧ Store.View.memory.Holds env'.store v'
      ∧ (env'.at 0 .faultless).run manager'.restore = (some (.ok report, manager'.forget), last)
      ∧ report.failed = []
      ∧ Covered v'.state
      ∧ Mirrors .standard last.engine v'.state
      ∧ last.engine.isEnabled "ruleset_1" = v'.state.enabled
      ∧ Store.View.memory.Holds last.store v''
      ∧ v''.state = v'.state := by
  refine restore_heals (v := .unwritten) 0 rfl rfl (IdTable.wellFormed_new _) nofun (fun _ => rfl)
    rfl ?_ (Regime.admits_faultless _)
  simp only [List.forall_mem_cons]
  refine ⟨(Regime.admits_faultless _).set .commit ?_, (Regime.admits_faultless _).set .addRules ?_,
    nofun⟩
  · simp [Regime.Allows, Regime.rough]
  · simp [Regime.Allows, Regime.rough, Operation.isTimed]

end Blocklist.Override
