import Blocklist.Proofs.Mirror
import Blocklist.Proofs.Operation

set_option autoImplicit false

/-! # Toggles keep engine and state together

A toggle that starts where the engine mirrors the state ends where it does, however many of its
calls fail, unless one of those calls was to make up for an earlier failure. -/

namespace Blocklist.Override

/-- The table keeps its pairs apart, every exempted domain has one, and the engine holds the pairs
of the exempted domains. -/
structure Matched (config : Config) (engine : Engine) (state : PersistedState) : Prop where
  wellFormed : state.overrideIds.WellFormed
  covered : Covered state
  mirrors : Mirrors config engine state

/-- The calls of a toggle show, in their order, that what was to make up for an earlier failure has
failed too. The last call comes first, and `x` is a call on the store that has failed. -/
inductive CompensationFailed (config : Config) (domain : String) (state : PersistedState) :
    (wasExempted blocked : Bool) → List Exchange → Prop where
  /-- The pair of the domain was added, then its exemption could not be committed, and then the pair
  could not be withdrawn. -/
  | withdrawal {ids : IdPair} {e : EngineError} {x : Exchange} {log : List Exchange} :
      state.overrideIds.get? domain = some ids → x.onStore = true → x.failed = true →
      [⟨.removeRules ids.toList, some (.error e)⟩, x,
        ⟨.addRules (pairRules config domain ids), some (.ok ())⟩].Sublist log →
      CompensationFailed config domain state false false log
  /-- The pair of the domain was removed, then it could not be added again, and then the exemption
  could not be dropped. -/
  | drop {ids : IdPair} {e : EngineError} {x : Exchange} {log : List Exchange} :
      state.overrideIds.get? domain = some ids → x.onStore = true → x.failed = true →
      [x, ⟨.addRules (pairRules config domain ids), some (.error e)⟩,
        ⟨.removeRules ids.toList, some (.ok ())⟩].Sublist log →
      CompensationFailed config domain state true false log
  /-- The pair of the domain was removed, then the end of its exemption could not be committed, and
  then the pair could not be added again. -/
  | reinstatement {ids : IdPair} {e : EngineError} {x : Exchange} {log : List Exchange} :
      state.overrideIds.get? domain = some ids → x.onStore = true → x.failed = true →
      [⟨.addRules (pairRules config domain ids), some (.error e)⟩, x,
        ⟨.removeRules ids.toList, some (.ok ())⟩].Sublist log →
      CompensationFailed config domain state true true log

section

variable {config : Config} {engine engine' : Engine} {state state' : PersistedState}
  {domain : String} {ids : IdPair} {stale : Option IdPair}

theorem owns_touch (now : UInt64) (other : String) (p : IdPair) :
    Owns (state.touch now) other p ↔ Owns state other p := Iff.rfl

theorem owns_removeExemption (other : String) (p : IdPair) :
    Owns (state.removeExemption domain) other p ↔ other ≠ domain ∧ Owns state other p := by
  unfold Owns
  rw [PersistedState.isExempted_removeExemption, and_assoc]
  exact Iff.rfl

theorem owns_addExemption (hids : state.overrideIds.get? domain = some ids) (other : String)
    (p : IdPair) : Owns (state.addExemption domain) other p
      ↔ other = domain ∧ p = ids ∨ Owns state other p := by
  unfold Owns
  rw [PersistedState.isExempted_addExemption, PersistedState.overrideIds_addExemption, or_and_right]
  refine or_congr_left (and_congr_right ?_)
  rintro rfl
  rw [hids, Option.some.injEq, eq_comm]

namespace Matched

/-- Nothing exempted and nothing installed. -/
theorem of_nothing (hw : state.overrideIds.WellFormed) (hexempted : state.exemptedDomains = [])
    (hempty : ∀ id, engine.rule? id = none) : Matched config engine state := by
  have hnone : ∀ domain, state.isExempted domain ≠ true := by
    intro domain
    rw [PersistedState.isExempted, hexempted]
    exact Bool.false_ne_true
  refine ⟨hw, fun domain h => absurd h (hnone domain), fun id rule => ?_⟩
  rw [hempty]
  constructor
  · intro h
    cases h
  · rintro ⟨domain, ids, howns, -⟩
    exact absurd howns.1 (hnone domain)

theorem granted (h : Matched config engine state)
    (hgranted : Granted config domain state ids stale state') : Matched config engine state' where
  wellFormed := hgranted.wellFormed h.wellFormed
  covered := h.covered.granted hgranted
  mirrors := h.mirrors.of_owns_iff (h.covered.owns_granted hgranted)

/-- The rules of a domain are removed and its exemption with them. -/
theorem removed (h : Matched config engine state)
    (hids : state.overrideIds.get? domain = some ids) (now : UInt64) :
    Matched config (engine.removeRules ids.toList) ((state.removeExemption domain).touch now) where
  wellFormed := h.wellFormed
  covered := by
    intro other hexempted
    rw [PersistedState.isExempted_touch, PersistedState.isExempted_removeExemption] at hexempted
    exact h.covered other hexempted.2
  mirrors := h.mirrors.removeRules h.wellFormed hids fun other p => by
    rw [owns_touch, owns_removeExemption]

/-- Nothing stands at the pair of a domain that is not exempted. -/
theorem cleared (h : Matched config engine state)
    (hids : state.overrideIds.get? domain = some ids)
    (hexempted : state.isExempted domain = false) :
    Matched config (engine.removeRules ids.toList) state where
  wellFormed := h.wellFormed
  covered := h.covered
  mirrors := h.mirrors.removeRules h.wellFormed hids fun other p => by
    refine (and_iff_right_of_imp ?_).symm
    rintro ⟨hother, -⟩ rfl
    rw [hexempted] at hother
    cases hother

theorem of_blocked (h : Matched config engine state) (now : UInt64) :
    Matched config (blocked engine state domain) ((state.removeExemption domain).touch now) := by
  cases hids : state.overrideIds.get? domain with
  | some ids =>
    rw [blocked_of_touchedIds_eq_some (touchedIds_of_get?_eq_some hids)]
    exact h.removed hids now
  | none =>
    rw [blocked_of_touchedIds_eq_none (h.covered.touchedIds_eq domain ▸ hids)]
    refine ⟨h.wellFormed, ?_, h.mirrors.of_owns_iff fun other p => ?_⟩
    · intro other hexempted
      rw [PersistedState.isExempted_touch, PersistedState.isExempted_removeExemption] at hexempted
      exact h.covered other hexempted.2
    · rw [owns_touch, owns_removeExemption, and_iff_right_of_imp]
      rintro howns rfl
      cases hids.symm.trans howns.2

theorem of_blocked_of_not_exempted (h : Matched config engine state)
    (hexempted : state.isExempted domain = false) :
    Matched config (blocked engine state domain) state := by
  cases hids : state.overrideIds.get? domain with
  | some ids =>
    rw [blocked_of_touchedIds_eq_some (touchedIds_of_get?_eq_some hids)]
    exact h.cleared hids hexempted
  | none =>
    rw [blocked_of_touchedIds_eq_none (h.covered.touchedIds_eq domain ▸ hids)]
    exact h

/-- A domain is installed and exempted. -/
theorem installed (h : Matched config engine state)
    (hids : state.overrideIds.get? domain = some ids)
    (hinstalled : Installed config domain ids none engine engine') (now : UInt64) :
    Matched config engine' ((state.addExemption domain).touch now) where
  wellFormed := by
    show (state.addExemption domain).overrideIds.WellFormed
    rw [PersistedState.overrideIds_addExemption]
    exact h.wellFormed
  covered := by
    intro other hexempted
    rw [PersistedState.isExempted_touch, PersistedState.isExempted_addExemption] at hexempted
    show ∃ p, (state.addExemption domain).overrideIds.get? other = some p
    rw [PersistedState.overrideIds_addExemption]
    rcases hexempted with rfl | hexempted
    · exact ⟨ids, hids⟩
    · exact h.covered other hexempted
  mirrors := h.mirrors.installed h.wellFormed hids hinstalled fun other p => by
    rw [owns_touch, owns_addExemption hids]

/-- The rules of an exempted domain are installed again. -/
theorem reinstalled (h : Matched config engine state)
    (hids : state.overrideIds.get? domain = some ids) (hexempted : state.isExempted domain = true)
    (hinstalled : Installed config domain ids none engine engine') :
    Matched config engine' state where
  wellFormed := h.wellFormed
  covered := h.covered
  mirrors := h.mirrors.installed h.wellFormed hids hinstalled fun other p => by
    refine (or_iff_right_of_imp ?_).symm
    rintro ⟨rfl, rfl⟩
    exact ⟨hexempted, hids⟩

/-- A domain is installed and withdrawn again. -/
theorem withdrawn (h : Matched config engine state)
    (hids : state.overrideIds.get? domain = some ids) (hexempted : state.isExempted domain = false)
    (hinstalled : Installed config domain ids none engine engine') :
    Matched config (engine'.removeRules ids.toList) state := by
  rw [hinstalled.removeRules]
  exact h.cleared hids hexempted

end Matched

end

/-! ## Toggles -/

/-- What a toggle makes sure of, given the state before it. -/
structure ToggleEnds (config : Config) (domain : String) (blocked : Bool) (before : PersistedState)
    (result : Except OverrideError Transition) (engine : Engine) (state : PersistedState)
    (log : List Exchange) : Prop where
  matched : Matched config engine state
    ∨ CompensationFailed config domain state (before.isExempted domain) blocked log
  exempted_of_ok : ∀ t, result = .ok t → (state.isExempted domain = true ↔ blocked = false)
  /-- A failed toggle changes no exemption; only one whose rules were removed and could not be added
  again is given up. -/
  exemptions_of_error : ∀ e, result = .error e →
    state.exemptedDomains = before.exemptedDomains
      ∨ blocked = false ∧ before.isExempted domain = true
        ∧ state.exemptedDomains = before.exemptedDomains.filter (· != domain)
        ∧ ∃ ids refusal, before.overrideIds.get? domain = some ids
          ∧ [⟨.addRules (pairRules config domain ids), some (.error refusal)⟩,
            ⟨.removeRules ids.toList, some (.ok ())⟩].Sublist log

section

variable {regime : Regime} {config : Config} {domain : String} {w after : World}
  {result : Except OverrideError Transition}

/-- The end of a toggle that failed without giving up an exemption. -/
theorem ToggleEnds.of_error {blocked : Bool} {e : OverrideError}
    (hmatched : Matched config after.engine after.state
      ∨ CompensationFailed config domain after.state (w.state.isExempted domain) blocked after.log)
    (hexemptions : after.state.exemptedDomains = w.state.exemptedDomains) :
    ToggleEnds config domain blocked w.state (.error e) after.engine after.state after.log where
  matched := hmatched
  exempted_of_ok t h := by cases h
  exemptions_of_error _ _ := .inl hexemptions

theorem GrantedOutcome.toggleEnds {ids : IdPair} {state : PersistedState}
    (h : Matched config w.engine w.state) (hgranted : Granted config domain w.state ids none state)
    (hend : GrantedOutcome regime config domain w ids none state result after) :
    ToggleEnds config domain false w.state result after.engine after.state after.log := by
  have hmatched := h.granted hgranted
  have hids := hgranted.get?_self
  have hwas := hgranted.isExempted domain
  have hexemptions := hgranted.exemptedDomains
  cases hend with
  | untouched e _ hafter _ =>
    refine .of_error (.inl ?_) (hafter.state ▸ hexemptions)
    rwa [hafter.engine, hafter.state]
  | cleared _ hafter hexempted =>
    refine .of_error (.inl ?_) (hafter.state ▸ hexemptions)
    rw [hafter.engine, hafter.state, clearedIds_none]
    exact hmatched.cleared hids (hwas.trans hexempted)
  | @dropped refusal now _ _ hafter hexempted hmade =>
    refine ⟨.inl ?_, nofun, fun e _ => .inr ?_⟩
    · rw [hafter.engine, hafter.state, clearedIds_none]
      exact hmatched.removed hids now
    · -- A domain that was exempted had its pair before, and it is the one that was granted.
      obtain ⟨p, hp⟩ := h.covered domain hexempted
      have hpids : p = ids := Option.some.inj ((hgranted.get?_of_eq_some hp).symm.trans hids)
      rw [clearedIds_none] at hmade
      refine ⟨rfl, hexempted, ?_, ids, refusal, hpids ▸ hp, hmade⟩
      rw [hafter.state, ← hexemptions]
      rfl
  | undropped _ hafter hexempted hstore hfailed hmade =>
    refine .of_error (.inr ?_) (hafter.state ▸ hexemptions)
    rw [hexempted, hafter.state]
    rw [clearedIds_none] at hmade
    exact .drop hids hstore hfailed hmade
  | kept e _ hinstalled hafter hexempted =>
    refine .of_error (.inl ?_) (hafter.state ▸ hexemptions)
    rw [hafter.engine, hafter.state]
    exact hmatched.reinstalled hids (hwas.trans hexempted) hinstalled
  | withdrawn e _ hinstalled hafter hexempted =>
    refine .of_error (.inl ?_) (hafter.state ▸ hexemptions)
    rw [hafter.engine, hafter.state]
    exact hmatched.withdrawn hids (hwas.trans hexempted) hinstalled
  | stranded e refusal _ _ hafter hexempted hstore hfailed hmade =>
    refine .of_error (.inr ?_) (hafter.state ▸ hexemptions)
    rw [hexempted, hafter.state]
    exact .withdrawal hids hstore hfailed hmade
  | done now hinstalled hafter =>
    refine ⟨.inl ?_, fun t _ => ?_, nofun⟩
    · rw [hafter.engine, hafter.state]
      exact hmatched.installed hids hinstalled now
    · simp [hafter.state]

theorem ExemptOutcome.toggleEnds (h : Matched config w.engine w.state)
    (hend : ExemptOutcome regime config domain w result after) :
    ToggleEnds config domain false w.state result after.engine after.state after.log := by
  cases hend with
  | refused _ _ hafter =>
    refine .of_error (.inl ?_) (by rw [hafter.state])
    rwa [hafter.engine, hafter.state]
  | failed e _ hafter =>
    refine .of_error (.inl ?_) (by rw [hafter.state])
    rwa [hafter.engine, hafter.state]
  | granted hgranted hend =>
    -- No domain is migrated here, since each exempted one has its pair.
    obtain rfl := h.covered.stale_eq_none hgranted
    exact hend.toggleEnds h hgranted

theorem UnexemptOutcome.toggleEnds (h : Matched config w.engine w.state)
    (hend : UnexemptOutcome regime config domain w (touchedIds w.state domain) result after) :
    ToggleEnds config domain true w.state result after.engine after.state after.log := by
  cases hend with
  | failed e _ hafter _ =>
    refine .of_error (.inl ?_) (by rw [hafter.state])
    rwa [hafter.engine, hafter.state]
  | uncommitted e _ hafter hexempted =>
    refine .of_error (.inl ?_) (by rw [hafter.state])
    rw [hafter.engine, hafter.state]
    exact h.of_blocked_of_not_exempted hexempted
  | reinstated e _ hids hinstalled hafter hexempted =>
    refine .of_error (.inl ?_) (by rw [hafter.state])
    rw [hafter.engine, hafter.state]
    exact h.reinstalled (h.covered.touchedIds_eq domain ▸ hids) hexempted hinstalled
  | lost e refusal _ hids hafter hexempted hstore hfailed hmade =>
    refine .of_error (.inr ?_) (by rw [hafter.state])
    rw [hexempted, hafter.state]
    exact .reinstatement (h.covered.touchedIds_eq domain ▸ hids) hstore hfailed hmade
  | done now hafter =>
    refine ⟨.inl ?_, fun t _ => ?_, nofun⟩
    · rw [hafter.engine, hafter.state]
      exact h.of_blocked now
    · simp [hafter.state]

end

section

-- Otherwise the elaborator tries to compute the name of an unknown input.
attribute [local irreducible] Manager.domainOf

/-- A toggle that starts matched ends matched, unless what makes up for a failure fails itself; its
result tells whether the domain is exempted, and its failure changes no exemption but one whose
rules are lost. -/
theorem toggleEnds_of_setDomainBlocking {view : Store.View} {manager : Manager} {env : Environment}
    {v : Versioned} {input domain : String} {blocked : Bool}
    (htable : manager.config.idScheme = .table) (hdomain : Manager.domainOf input = .ok domain)
    (hholds : view.Holds env.store v) (hadmits : (Regime.rough False).Admits env.schedule)
    (hmatched : Matched manager.config env.engine v.state) :
    ∃ result after v',
      env.run (manager.setDomainBlocking input blocked) = (some (result, manager.forget), after)
      ∧ view.Holds after.store v'
      ∧ ToggleEnds manager.config domain blocked v.state result after.engine v'.state
          (env.exchanges (manager.setDomainBlocking input blocked) []) := by
  have hquiet := Regime.quiet_rough False
  have hguarantees : Guarantees (.rough False) (fun _ => False)
      (manager.setDomainBlocking input blocked) ⟨env.engine, v, []⟩ fun outcome after =>
        outcome.2 = manager.forget
          ∧ ToggleEnds manager.config domain blocked v.state outcome.1 after.engine after.state
              after.log := by
    rw [guarantees_setDomainBlocking hdomain, toggle]
    cases blocked with
    | true =>
      exact guarantees_unexempt htable hquiet
        (fun result after hend => ⟨rfl, hend.toggleEnds hmatched⟩) fun _ hhangs => hhangs.elim
    | false =>
      exact guarantees_exempt htable hquiet
        (fun result after hend => ⟨rfl, hend.toggleEnds hmatched⟩) fun _ hhangs => hhangs.elim
  obtain ⟨⟨result, manager'⟩, after, v', hrun, hheld, rfl, hend⟩ :=
    hguarantees.exists_run env hholds hadmits
  exact ⟨result, after, v', hrun, hheld, hend⟩

end

/-- A first exemption whose commit is lost. -/
theorem toggleEnds_of_lost_commit :
    ∃ result after v',
      Environment.run
          (Manager.setDomainBlocking ⟨.standard, .new 1000⟩ "a.com" false)
          ⟨.withRulesets ["ruleset_1"], .memory .empty, 0,
            Schedule.faultless.set .commit [.none, .unavailable], []⟩
        = (some (result, Manager.forget ⟨.standard, .new 1000⟩), after)
      ∧ Store.View.memory.Holds after.store v'
      ∧ ToggleEnds .standard "a.com" false .initial result after.engine v'.state
          (Environment.exchanges (Manager.setDomainBlocking ⟨.standard, .new 1000⟩ "a.com" false)
            ⟨.withRulesets ["ruleset_1"], .memory .empty, 0,
              Schedule.faultless.set .commit [.none, .unavailable], []⟩ []) :=
  toggleEnds_of_setDomainBlocking (v := .unwritten) rfl rfl rfl
    ((Regime.admits_faultless _).set .commit (by simp [Regime.Allows, Regime.rough]))
    (.of_nothing (IdTable.wellFormed_new _) rfl fun _ => rfl)

end Blocklist.Override
