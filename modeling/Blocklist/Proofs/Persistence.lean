import Blocklist.Proofs.Conduct
import Blocklist.Proofs.Mirror

set_option autoImplicit false

/-! # Ids are persisted before they are used

Managers come and go over one store, each with settings of its own, and any of their calls may fail
or be the last one before the process stops. At every moment between two calls the session rules
stand at ids that are persisted for their own domains, no two domains share an id, and a pair that
was once persisted stays as it is (`anchored_through_history`). -/

namespace Blocklist.Override

/-! ## Anchored rules -/

/-- Every session rule stands at an id of the pair that is persisted for its own domain: the rule
about requests from the domain at the incoming id, the one about requests to it at the outgoing
one. -/
def Anchored (engine : Engine) (state : PersistedState) : Prop :=
  ∀ id rule, engine.rule? id = some rule → ∃ domain ids priority,
    state.overrideIds.get? domain = some ids
      ∧ (id = ids.incoming ∧ rule = .allowInitiator id priority domain
        ∨ id = ids.outgoing ∧ rule = .allowRequest id priority domain)

/-- No domain loses its pair or gets another one. -/
def KeepsPairs (before after : PersistedState) : Prop :=
  ∀ domain ids, before.overrideIds.get? domain = some ids →
    after.overrideIds.get? domain = some ids

/-- What every effect of a lawful call keeps. -/
structure Sound (engine : Engine) (state : PersistedState) : Prop where
  wellFormed : state.overrideIds.WellFormed
  covered : Covered state
  anchored : Anchored engine state

section

variable {config : Config} {engine engine' : Engine} {state state' : PersistedState}
  {domain : String} {ids : IdPair}

theorem KeepsPairs.refl (state : PersistedState) : KeepsPairs state state :=
  fun _ _ h => h

theorem KeepsPairs.trans (s₁ s₂ s₃ : PersistedState) (h : KeepsPairs s₁ s₂)
    (h' : KeepsPairs s₂ s₃) : KeepsPairs s₁ s₃ :=
  fun domain ids hids => h' domain ids (h domain ids hids)

/-- Only an allocation changes the table. -/
theorem Evolves.overrideIds (h : Evolves config state state') :
    state'.overrideIds = state.overrideIds
      ∨ ∃ domain ids, state.overrideIds.get? domain = none
        ∧ allocation config state.overrideIds domain = .ok (ids, state'.overrideIds) := by
  cases h with
  | allocated hnew hallocation => exact Or.inr ⟨_, _, hnew, hallocation⟩
  | exempted now hids => exact Or.inl (PersistedState.overrideIds_addExemption ..)
  | blocked domain now => exact Or.inl rfl
  | switched enabled now => exact Or.inl rfl

/-- No change of the state takes a pair away. -/
theorem Evolves.keepsPairs (h : Evolves config state state') : KeepsPairs state state' := by
  intro other p hp
  rcases h.overrideIds with hsame | ⟨domain, ids, hnew, hallocation⟩
  · rwa [hsame]
  · rw [get?_of_allocation hallocation, if_neg]
    · exact hp
    · rintro rfl
      cases hnew.symm.trans hp

theorem Evolves.wellFormed (h : Evolves config state state') (hw : state.overrideIds.WellFormed) :
    state'.overrideIds.WellFormed := by
  rcases h.overrideIds with hsame | ⟨domain, ids, hnew, hallocation⟩
  · rwa [hsame]
  · exact wellFormed_of_allocation hw hnew hallocation

theorem Evolves.covered (h : Evolves config state state') (hcovered : Covered state) :
    Covered state' := by
  have hkeeps := h.keepsPairs
  intro other hother
  -- Only a domain that has a pair becomes exempted.
  have hhad : ∃ p, state.overrideIds.get? other = some p := by
    cases h with
    | allocated hnew hallocation => exact hcovered other hother
    | exempted now hids =>
      rw [PersistedState.isExempted_touch, PersistedState.isExempted_addExemption] at hother
      rcases hother with rfl | hother
      · exact ⟨_, hids⟩
      · exact hcovered other hother
    | blocked domain now =>
      rw [PersistedState.isExempted_touch, PersistedState.isExempted_removeExemption] at hother
      exact hcovered other hother.2
    | switched enabled now => exact hcovered other hother
  obtain ⟨p, hp⟩ := hhad
  exact ⟨p, hkeeps other p hp⟩

theorem Anchored.of_keepsPairs (h : Anchored engine state) (hkeeps : KeepsPairs state state') :
    Anchored engine state' := by
  intro id rule hrule
  obtain ⟨domain, ids, priority, hids, hplace⟩ := h id rule hrule
  exact ⟨domain, ids, priority, hkeeps domain ids hids, hplace⟩

/-- Where every rule was there before, all stay anchored. -/
theorem Anchored.of_rules (h : Anchored engine state)
    (hrules : ∀ id rule, engine'.rule? id = some rule → engine.rule? id = some rule) :
    Anchored engine' state :=
  fun id rule hrule => h id rule (hrules id rule hrule)

theorem Anchored.addRules (h : Anchored engine state)
    (hids : state.overrideIds.get? domain = some ids)
    (hadd : engine.addRules (pairRules config domain ids) = .ok engine') :
    Anchored engine' state := by
  obtain ⟨⟨-, hnodup⟩, hrules, -⟩ := (Engine.addRules_eq_ok_iff ..).1 hadd
  intro id rule hrule
  rw [hrules, Option.or_eq_some_iff, Engine.find?_id_eq_some_iff hnodup] at hrule
  rcases hrule with ⟨hnew, rfl⟩ | ⟨-, hold⟩
  · refine ⟨domain, ids, config.overridePriority, hids, ?_⟩
    rcases mem_pairRules.1 hnew with rfl | rfl
    · exact Or.inl ⟨rfl, rfl⟩
    · exact Or.inr ⟨rfl, rfl⟩
  · exact h id rule hold

theorem Sound.clearRules (h : Sound engine state) : Sound engine.clearRules state where
  wellFormed := h.wellFormed
  covered := h.covered
  anchored := h.anchored.of_rules fun id rule hrule => by
    rw [Engine.rule?_clearRules] at hrule
    cases hrule

/-- No lawful call breaks it. -/
theorem Sound.effect (h : Sound engine state)
    (heffect : Effect config engine state engine' state') : Sound engine' state' := by
  cases heffect with
  | nothing => exact h
  | switched ruleset on => exact ⟨h.wellFormed, h.covered, h.anchored⟩
  | removed ids =>
    refine ⟨h.wellFormed, h.covered, h.anchored.of_rules fun id rule hrule => ?_⟩
    rw [Engine.rule?_removeRules] at hrule
    split at hrule
    · cases hrule
    · exact hrule
  | added hids hadd =>
    -- What blocking the domain would clear is its pair, as no domain is exempted without one.
    rw [h.covered.touchedIds_eq] at hids
    exact ⟨h.wellFormed, h.covered, h.anchored.addRules hids hadd⟩
  | committed hevolves =>
    exact ⟨hevolves.wellFormed h.wellFormed, hevolves.covered h.covered,
      h.anchored.of_keepsPairs hevolves.keepsPairs⟩

theorem Effect.keepsPairs (h : Effect config engine state engine' state') :
    KeepsPairs state state' := by
  cases h with
  | nothing => exact .refl state
  | switched ruleset on => exact .refl state
  | removed ids => exact .refl state
  | added hids hadd => exact .refl state
  | committed hevolves => exact hevolves.keepsPairs

end

/-! ## Histories -/

/-- A manager's operation, the time and the faults that it meets, and whether the engine was started
anew before it. -/
structure Turn where
  manager : Manager
  step : Step
  restarted : Bool

namespace Turn

/-- What the manager finds; an engine that was started anew has no session rules. -/
def start (turn : Turn) (env : Environment) : Environment :=
  let env := if turn.restarted then { env with engine := env.engine.clearRules } else env
  env.at turn.step.time turn.step.schedule

/-- The operation as a program. -/
def program (turn : Turn) : Run Manager :=
  turn.step.operation.program turn.manager

/-- The calls of a turn, each with the environment in which it is made. -/
def calls (turn : Turn) (env : Environment) : List (Environment × Call) :=
  (turn.start env).calls turn.program

/-- The environment before each call of a turn and at its end. -/
def moments (turn : Turn) (env : Environment) : List Environment :=
  (turn.start env).moments turn.program

/-- What a turn leaves, also where the process stops in it. -/
def finish (turn : Turn) (env : Environment) : Environment :=
  ((turn.start env).run turn.program).2

end Turn

/-- What all turns leave. -/
def finish (turns : List Turn) (env : Environment) : Environment :=
  turns.foldl (fun env turn => turn.finish env) env

/-- All moments of all turns, and the end. -/
def history : List Turn → Environment → List Environment
  | [], env => [env]
  | turn :: rest, env => turn.moments env ++ history rest (turn.finish env)

/-- The pair that is persisted for a domain. -/
def Environment.pair? (env : Environment) (domain : String) : Option IdPair :=
  env.persisted?.bind (·.overrideIds.get? domain)

/-- What no lawful call breaks, nor the loss of all rules. -/
structure Stable (inv : Engine → PersistedState → Prop) : Prop where
  clearRules : ∀ {engine state}, inv engine state → inv engine.clearRules state
  effect : ∀ {config engine state engine' state'}, inv engine state →
    Effect config engine state engine' state' → inv engine' state'

theorem stable_sound : Stable Sound :=
  ⟨Sound.clearRules, Sound.effect⟩

section

variable {view : Store.View} {regime : Regime} {env : Environment}
  {inv : Engine → PersistedState → Prop}

theorem pair?_of_holds {v : Versioned} (h : view.Holds env.store v) (domain : String) :
    env.pair? domain = v.state.overrideIds.get? domain := by
  rw [Environment.pair?, persisted?_of_holds h]
  rfl

@[simp]
theorem Turn.store_start (turn : Turn) (env : Environment) :
    (turn.start env).store = env.store := by
  rw [start]
  split
  · rfl
  · rfl

/-- What a manager finds is the world that was left, but for the rules of the engine. -/
theorem Turn.shows (turn : Turn) (hadmits : regime.Admits turn.step.schedule) {v : Versioned}
    (hholds : view.Holds env.store v) :
    Shows view regime (turn.start env) ⟨(turn.start env).engine, v, []⟩ :=
  ⟨rfl, by rwa [store_start], hadmits⟩

theorem Turn.exists_shows (turn : Turn) (hstable : Stable inv)
    (hadmits : regime.Admits turn.step.schedule) (h : env.Keeps view inv) :
    ∃ w, Shows view regime (turn.start env) w ∧ inv w.engine w.state := by
  obtain ⟨v, hholds, hinv⟩ := h
  refine ⟨_, turn.shows hadmits hholds, ?_⟩
  show inv (turn.start env).engine v.state
  rw [start]
  split
  · exact hstable.clearRules hinv
  · exact hinv

/-- What is stable holds at every moment of a turn. -/
theorem Turn.forall_moments (turn : Turn) (hstable : Stable inv) (hquiet : regime.Quiet)
    (htable : turn.manager.config.idScheme = .table) (hadmits : regime.Admits turn.step.schedule)
    (h : env.Keeps view inv) : ∀ e ∈ turn.moments env, e.Keeps view inv := by
  obtain ⟨w, hshows, hinv⟩ := turn.exists_shows hstable hadmits h
  exact (obeys_program htable hquiet turn.step.operation).forall_moments
    (fun _ _ _ _ hu hallowed hanswer => hstable.effect hu (hallowed.effect hquiet hanswer))
    hshows hinv

theorem Turn.keeps_finish (turn : Turn) (hstable : Stable inv) (hquiet : regime.Quiet)
    (htable : turn.manager.config.idScheme = .table) (hadmits : regime.Admits turn.step.schedule)
    (h : env.Keeps view inv) : (turn.finish env).Keeps view inv :=
  turn.forall_moments hstable hquiet htable hadmits h _ (Environment.run_mem_moments ..)

/-- Pairs are kept from each moment of a turn to the later ones. -/
theorem Turn.ascends (turn : Turn) (hstable : Stable inv) (hquiet : regime.Quiet)
    (htable : turn.manager.config.idScheme = .table) (hadmits : regime.Admits turn.step.schedule)
    (h : env.Keeps view inv) :
    Ascends (Environment.Leads view KeepsPairs) env (turn.moments env) (turn.finish env) := by
  obtain ⟨w, hshows, hinv⟩ := turn.exists_shows hstable hadmits h
  have hascends := (obeys_program htable hquiet turn.step.operation).ascends KeepsPairs.refl
    KeepsPairs.trans (fun _ _ _ _ hu hallowed hanswer =>
      have heffect := hallowed.effect hquiet hanswer
      ⟨hstable.effect hu heffect, heffect.keepsPairs⟩) hshows hinv
  -- Starting the engine anew does not change the store.
  have hstart : ∀ {e}, (turn.start env).Leads view KeepsPairs e → env.Leads view KeepsPairs e := by
    intro e he
    rwa [Environment.Leads, store_start] at he
  exact ⟨hstart hascends.ends, fun e he => hstart (hascends.first e he), hascends.last,
    hascends.pairwise⟩

/-- What is stable holds at every moment of a history. -/
theorem forall_history (hstable : Stable inv) (hquiet : regime.Quiet) (turns : List Turn)
    (htable : ∀ turn ∈ turns, turn.manager.config.idScheme = .table)
    (hadmits : ∀ turn ∈ turns, regime.Admits turn.step.schedule) (h : env.Keeps view inv) :
    ∀ e ∈ history turns env, e.Keeps view inv := by
  induction turns generalizing env with
  | nil => exact List.forall_mem_singleton.2 h
  | cons turn rest ih =>
    rw [List.forall_mem_cons] at htable hadmits
    exact List.forall_mem_append.2
      ⟨turn.forall_moments hstable hquiet htable.1 hadmits.1 h,
        ih htable.2 hadmits.2 (turn.keeps_finish hstable hquiet htable.1 hadmits.1 h)⟩

theorem keeps_finish (hstable : Stable inv) (hquiet : regime.Quiet) (turns : List Turn)
    (htable : ∀ turn ∈ turns, turn.manager.config.idScheme = .table)
    (hadmits : ∀ turn ∈ turns, regime.Admits turn.step.schedule) (h : env.Keeps view inv) :
    (finish turns env).Keeps view inv := by
  induction turns generalizing env with
  | nil => exact h
  | cons turn rest ih =>
    rw [List.forall_mem_cons] at htable hadmits
    exact ih htable.2 hadmits.2 (turn.keeps_finish hstable hquiet htable.1 hadmits.1 h)

/-- Pairs are kept from each moment of a history to the later ones. -/
theorem history_ascends (hstable : Stable inv) (hquiet : regime.Quiet) (turns : List Turn)
    (htable : ∀ turn ∈ turns, turn.manager.config.idScheme = .table)
    (hadmits : ∀ turn ∈ turns, regime.Admits turn.step.schedule) (h : env.Keeps view inv) :
    Ascends (Environment.Leads view KeepsPairs) env (history turns env) (finish turns env) := by
  induction turns generalizing env with
  | nil => exact ascends_singleton (.refl KeepsPairs.refl env) (.refl KeepsPairs.refl env)
  | cons turn rest ih =>
    rw [List.forall_mem_cons] at htable hadmits
    exact (turn.ascends hstable hquiet htable.1 hadmits.1 h).append
      (fun h => h.trans KeepsPairs.trans)
      (ih htable.2 hadmits.2 (turn.keeps_finish hstable hquiet htable.1 hadmits.1 h))

/-- A store starts with nothing exempted and an engine without rules. Whatever managers under the
table scheme do to them, with whatever settings, and whichever calls fail or are the last one before
the process stops: at every moment between two calls the session rules are anchored in the persisted
table, its pairs are adjacent, free of 0 and disjoint, and no domain has lost a pair or got another
one since any earlier moment. -/
theorem anchored_through_history {v : Versioned} (turns : List Turn)
    (htable : ∀ turn ∈ turns, turn.manager.config.idScheme = .table)
    (hadmits : ∀ turn ∈ turns, (Regime.rough True).Admits turn.step.schedule)
    (hholds : view.Holds env.store v) (hexempted : v.state.exemptedDomains = [])
    (hw : v.state.overrideIds.WellFormed) (hempty : ∀ id, env.engine.rule? id = none) :
    (∀ e ∈ history turns env, ∃ state, e.persisted? = some state ∧ Anchored e.engine state
        ∧ (∀ domain ids, state.overrideIds.get? domain = some ids → ids.Proper)
        ∧ ∀ domain other ids p, state.overrideIds.get? domain = some ids →
            state.overrideIds.get? other = some p → domain ≠ other → ids.overlaps p = false)
      ∧ (history turns env).Pairwise fun e later =>
          ∀ domain ids, e.pair? domain = some ids → later.pair? domain = some ids := by
  have hquiet := Regime.quiet_rough True
  have hstart : env.Keeps view Sound := by
    refine ⟨v, hholds, hw, fun domain hdomain => ?_, fun id rule hrule => ?_⟩
    · rw [PersistedState.isExempted, hexempted] at hdomain
      cases hdomain
    · cases (hempty id).symm.trans hrule
  have hkeeps := forall_history stable_sound hquiet turns htable hadmits hstart
  constructor
  · intro e he
    obtain ⟨after, hafter, hsound⟩ := hkeeps e he
    refine ⟨after.state, persisted?_of_holds hafter, hsound.anchored,
      fun domain ids hids => hsound.wellFormed.proper hids, ?_⟩
    intro domain other ids p hids hp hne
    rw [Bool.eq_false_iff, Ne, IdPair.overlaps_eq_true_iff]
    rintro ⟨id, hid, hid'⟩
    exact hsound.wellFormed.disjoint hids hp hne id hid hid'
  · refine (history_ascends stable_sound hquiet turns htable hadmits hstart).pairwise.imp_of_mem ?_
    intro e later he _ hleads domain ids hids
    obtain ⟨before, hbefore, -⟩ := hkeeps e he
    obtain ⟨after, hafter, hkept⟩ := hleads before hbefore
    rw [pair?_of_holds hbefore] at hids
    rw [pair?_of_holds hafter]
    exact hkept domain ids hids

end

/-- The process stops when the rules of the first domain are about to be added. The next manager has
another base for its ids, and finds an engine that was started anew; it stops as well. -/
def stoppedTurns : List Turn :=
  [⟨⟨.standard, .new 1000⟩,
      ⟨.toggle "a.com" false, 0, Schedule.faultless.set .addRules [.hang]⟩, false⟩,
    ⟨⟨{ Config.standard with idBase := 500 }, .new 1000⟩,
      ⟨.toggle "b.com" false, 1, Schedule.faultless.set .removeRules [.hang]⟩, true⟩]

theorem table_stoppedTurns : ∀ turn ∈ stoppedTurns, turn.manager.config.idScheme = .table := by
  simp [stoppedTurns, Config.standard]

theorem admits_stoppedTurns :
    ∀ turn ∈ stoppedTurns, (Regime.rough True).Admits turn.step.schedule := by
  have hhang : ∀ kind, (Regime.rough True).Admits (Schedule.faultless.set kind [.hang]) :=
    fun kind => (Regime.admits_faultless _).set kind (by simp [Regime.Allows, Regime.rough])
  simpa [stoppedTurns] using And.intro (hhang .addRules) (hhang .removeRules)

theorem anchored_through_stops :
    (history stoppedTurns freshEnvironment).map (·.pair? "a.com")
        = [none, none] ++ List.replicate 10 (some ⟨16777216, 16777217⟩)
      ∧ (finish stoppedTurns freshEnvironment).pair? "b.com" = some ⟨16777218, 16777219⟩
      ∧ ∀ e ∈ history stoppedTurns freshEnvironment, ∃ state, e.persisted? = some state
          ∧ Anchored e.engine state := by
  have hholds : Store.View.memory.Holds freshEnvironment.store .unwritten := rfl
  obtain ⟨hanchored, -⟩ := anchored_through_history stoppedTurns table_stoppedTurns
    admits_stoppedTurns hholds rfl (IdTable.wellFormed_new _) fun _ => rfl
  refine ⟨by decide +kernel, by decide +kernel, fun e he => ?_⟩
  obtain ⟨state, hstate, hrules, -⟩ := hanchored e he
  exact ⟨state, hstate, hrules⟩

end Blocklist.Override
