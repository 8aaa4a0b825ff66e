import Blocklist.Proofs.Persistence
import Blocklist.Proofs.Roster

set_option autoImplicit false

/-! # Override ids and the ids of compiled rules

A pair that is handed out is above the ids of the compiled rules as they are then. It is not looked
at again when the compiled rules grow: a manager adds rules at or below its `maxStaticRuleId` for
those domains, and only those, whose pairs were there before and are not above it
(`added_above_iff`). Only a domain that has no pair is refused one. -/

namespace Blocklist.Override

/-! ## Pairs above the compiled rules -/

/-- Both ids of a pair are above those of the compiled rules. -/
def AboveStatic (config : Config) (ids : IdPair) : Prop :=
  ∀ id ∈ ids.toList, config.maxStaticRuleId < id

/-- The table keeps its pairs apart and hands them out from its base on. -/
structure InOrder (state : PersistedState) : Prop where
  wellFormed : state.overrideIds.WellFormed
  base_le : state.overrideIds.base ≤ state.overrideIds.next

/-- What becomes of a state under some settings: pairs stay, and new ones are above the compiled
rules. -/
structure Follows (config : Config) (before after : PersistedState) : Prop where
  inOrder : InOrder after
  kept : KeepsPairs before after
  above : ∀ domain ids, after.overrideIds.get? domain = some ids →
    before.overrideIds.get? domain = none → AboveStatic config ids

section

variable {config : Config} {engine engine' : Engine} {before state state' : PersistedState}
  {domain : String} {ids : IdPair}

/-- The rules of a pair are above the compiled ones iff the pair is. -/
theorem forall_pairRules_iff : (∀ rule ∈ pairRules config domain ids,
    config.maxStaticRuleId < rule.id) ↔ AboveStatic config ids := by
  simp [pairRules, AboveStatic, IdPair.toList, Rule.allowInitiator, Rule.allowRequest]

theorem base_le_tableFor (config : Config) {table : IdTable} (h : table.base ≤ table.next) :
    (tableFor config table).base ≤ (tableFor config table).next := by
  rw [tableFor]
  split
  · exact UInt32.le_refl _
  · exact h

/-- A new pair is above the compiled rules. -/
theorem above_of_allocation {table after : IdTable} (hnew : table.get? domain = none)
    (hbase : table.base ≤ table.next) (h : allocation config table domain = .ok (ids, after)) :
    AboveStatic config ids ∧ after.base ≤ after.next := by
  obtain ⟨reserved, hreserve, hallocate⟩ := exists_of_allocation h
  obtain ⟨hstatic, hreserved⟩ :=
    IdTable.lt_base_of_reserveAbove hreserve (base_le_tableFor config hbase)
  obtain ⟨hincoming, houtgoing, hafter⟩ := IdTable.base_le_of_allocate
    (by rwa [IdTable.get?_of_reserveAbove hreserve, get?_tableFor]) hallocate hreserved
  refine ⟨fun id hid => ?_, hafter⟩
  rcases IdPair.mem_toList.1 hid with rfl | rfl
  · exact UInt32.lt_of_lt_of_le hstatic hincoming
  · exact UInt32.lt_of_lt_of_le hstatic houtgoing

theorem Evolves.inOrder (h : Evolves config state state') (hstate : InOrder state) :
    InOrder state' := by
  refine ⟨h.wellFormed hstate.wellFormed, ?_⟩
  rcases h.overrideIds with hsame | ⟨domain, ids, hnew, hallocation⟩
  · rw [hsame]
    exact hstate.base_le
  · exact (above_of_allocation hnew hstate.base_le hallocation).2

theorem Follows.refl (config : Config) (h : InOrder state) : Follows config state state :=
  ⟨h, .refl state, fun _ _ hids hnew => by cases hids.symm.trans hnew⟩

theorem Follows.evolves (h : Follows config before state) (hevolves : Evolves config state state') :
    Follows config before state' := by
  refine ⟨hevolves.inOrder h.inOrder, h.kept.trans _ _ _ hevolves.keepsPairs, ?_⟩
  intro other p hp hother
  rcases hevolves.overrideIds with hsame | ⟨domain, ids, hnew, hallocation⟩
  · exact h.above other p (hsame ▸ hp) hother
  · rw [get?_of_allocation hallocation] at hp
    split at hp
    · cases hp
      exact (above_of_allocation hnew h.inOrder.base_le hallocation).1
    · exact h.above other p hp hother

theorem Follows.effect (h : Follows config before state)
    (heffect : Effect config engine state engine' state') : Follows config before state' := by
  cases heffect with
  | nothing => exact h
  | switched ruleset on => exact h
  | removed ids => exact h
  | added hids hadd => exact h
  | committed hevolves => exact h.evolves hevolves

theorem Follows.granted {stale : Option IdPair} (h : Follows config before state)
    (hgranted : Granted config domain state ids stale state') : Follows config before state' := by
  cases hgranted with
  | known => exact h
  | fresh hnew hallocation => exact h.evolves (.allocated hnew hallocation)

/-- The pair of a domain is the one that it had before, or it had none and this one is above the
compiled rules. -/
theorem Follows.above_iff (h : Follows config before state)
    (hids : state.overrideIds.get? domain = some ids) :
    AboveStatic config ids
      ↔ ∀ p, before.overrideIds.get? domain = some p → AboveStatic config p := by
  constructor
  · intro habove p hp
    cases (h.kept domain p hp).symm.trans hids
    exact habove
  · intro hbefore
    cases hp : before.overrideIds.get? domain with
    | none => exact h.above domain ids hids hp
    | some p =>
      cases (h.kept domain p hp).symm.trans hids
      exact hbefore _ hp

end

theorem stable_inOrder : Stable fun _ state => InOrder state where
  clearRules h := h
  effect h heffect := ((Follows.refl _ h).effect heffect).inOrder

/-! ## Calls -/

section

variable {view : Store.View} {env : Environment}

/-- Whatever a turn adds is the pair of a domain, or the hashed ids of one that has no pair; and a
pair is above the compiled rules iff the one is that its domain had before the turn, if any. -/
theorem Turn.forall_added (turn : Turn) {regime : Regime} (hquiet : regime.Quiet)
    (htable : turn.manager.config.idScheme = .table) (hadmits : regime.Admits turn.step.schedule)
    {v : Versioned} (hholds : view.Holds env.store v) (hinOrder : InOrder v.state) :
    ∀ e rules, (e, Call.addRules rules) ∈ turn.calls env → ∃ domain ids,
      rules = pairRules turn.manager.config domain ids
      ∧ (e.pair? domain = none ∧ ids = .hashed domain
        ∨ e.pair? domain = some ids
          ∧ ((∀ rule ∈ rules, turn.manager.config.maxStaticRuleId < rule.id)
            ↔ ∀ p, v.state.overrideIds.get? domain = some p →
              AboveStatic turn.manager.config p)) := by
  have hcalls := (obeys_program htable hquiet turn.step.operation).forall_calls
    (fun _ state => Follows turn.manager.config v.state state)
    (fun _ _ _ _ hu hallowed hanswer => hu.effect (hallowed.effect hquiet hanswer))
    (turn.shows hadmits hholds) (.refl _ hinOrder)
  intro e rules he
  obtain ⟨u, hshows, hfollows, domain, ids, hids, rfl⟩ := hcalls _ he
  refine ⟨domain, ids, rfl, ?_⟩
  rw [pair?_of_holds hshows.held, forall_pairRules_iff]
  cases hpair : u.state.overrideIds.get? domain with
  | none =>
    rw [touchedIds_of_get?_eq_none hpair, staleIds, Option.ite_none_right_eq_some] at hids
    exact Or.inl ⟨rfl, (Option.some.inj hids.2).symm⟩
  | some p =>
    cases (touchedIds_of_get?_eq_some hpair).symm.trans hids
    exact Or.inr ⟨rfl, hfollows.above_iff hpair⟩

/-! ## Operations without failures -/

/-- A domain has a pair after an operation; it is above the compiled rules iff the one is that the
domain had before, if any. -/
def Placed (config : Config) (before after : PersistedState) (domain : String) : Prop :=
  ∃ ids, after.overrideIds.get? domain = some ids
    ∧ (AboveStatic config ids
      ↔ ∀ p, before.overrideIds.get? domain = some p → AboveStatic config p)

variable {config : Config} {engine : Engine} {state state' : PersistedState} {domain : String}

theorem Follows.placed (h : Follows config state state') {ids : IdPair}
    (hids : state'.overrideIds.get? domain = some ids) : Placed config state state' domain :=
  ⟨ids, hids, h.above_iff hids⟩

/-- A domain is exempted at a pair unless it has none and is refused one. -/
theorem settle_placed (htable : config.idScheme = .table) (h : InOrder state) :
    (∃ t, (settle config domain false engine state).result = .ok t
        ∧ Placed config state (settle config domain false engine state).state domain)
      ∨ ∃ e, settle config domain false engine state = ⟨.error (.ids e), engine, state⟩
        ∧ state.overrideIds.get? domain = none := by
  rw [settle, if_neg Bool.false_ne_true]
  cases hprepare : prepare config domain state with
  | error e =>
    refine Or.inr ⟨e, rfl, ?_⟩
    cases hids : state.overrideIds.get? domain with
    | none => rfl
    | some ids =>
      rw [prepare_of_knownIds? ((knownIds?_of_table htable ..).trans hids)] at hprepare
      cases hprepare
  | ok prepared =>
    obtain ⟨ids, stale, prepared⟩ := prepared
    have hgranted := (prepare_eq_ok_iff htable).1 hprepare
    obtain ⟨after, hinstalled⟩ :=
      exists_installed config domain (hgranted.proper h.wellFormed) stale engine
    rw [Installed] at hinstalled
    simp only [hinstalled]
    refine Or.inl ⟨_, rfl, ids, ?_, ((Follows.refl config h).granted hgranted).above_iff
      hgranted.get?_self⟩
    rw [PersistedState.overrideIds_addExemption]
    exact hgranted.get?_self

/-- How far a restoration of the state `s` has come that has the exempted domains `left` to do. -/
structure Placing (config : Config) (s : PersistedState) (left : List String)
    (report : RestoreReport) (u : World) : Prop where
  follows : Follows config s u.state
  exempted : u.state.exemptedDomains = s.exemptedDomains
  placed : ∀ domain ∈ s.exemptedDomains, domain ∉ left →
    domain ∈ report.restored ∧ (∃ ids, u.state.overrideIds.get? domain = some ids)
      ∨ s.overrideIds.get? domain = none ∧ ∃ e, (domain, .ids e) ∈ report.failed

section

variable {s : PersistedState} {left : List String} {report : RestoreReport} {u v : World}

/-- What is placed stays so while the report grows and pairs stay; so the next domain counts. -/
theorem Placing.step {report' : RestoreReport} (h : Placing config s (domain :: left) report u)
    (hfollows : Follows config s v.state) (hkeeps : KeepsPairs u.state v.state)
    (hexempted : v.state.exemptedDomains = u.state.exemptedDomains)
    (hrestored : report.restored ⊆ report'.restored) (hfailed : report.failed ⊆ report'.failed)
    (hdomain : domain ∈ s.exemptedDomains →
      domain ∈ report'.restored ∧ (∃ ids, v.state.overrideIds.get? domain = some ids)
        ∨ s.overrideIds.get? domain = none ∧ ∃ e, (domain, .ids e) ∈ report'.failed) :
    Placing config s left report' v := by
  refine ⟨hfollows, hexempted.trans h.exempted, fun other hother hleft => ?_⟩
  by_cases heq : other = domain
  · exact heq ▸ hdomain (heq ▸ hother)
  · rcases h.placed other hother (by simp [heq, hleft]) with
      ⟨hdone, ids, hids⟩ | ⟨hnone, e, hrefused⟩
    · exact Or.inl ⟨hrestored hdone, ids, hkeeps other ids hids⟩
    · exact Or.inr ⟨hnone, e, hfailed hrefused⟩

theorem Placing.next {result : Except OverrideError Bool}
    (h : Placing config s (domain :: left) report u)
    (hend : RestoreOutcome .calm config domain u result v) :
    Placing config s left (report.next domain result) v := by
  rcases hend.of_calm h.follows.inOrder.wellFormed with ⟨rfl, hexempted, hafter⟩
      | ⟨e, rfl, -, hnew, -, hafter⟩ | ⟨ids, stale, state, engine, rfl, -, hgranted, -, hafter⟩
  · refine h.step (hafter.state ▸ h.follows) (hafter.state ▸ .refl _) (by rw [hafter.state])
      (fun _ hx => hx) (fun _ hx => hx) fun hdomain => ?_
    -- The domain is still exempted, so it is not passed over.
    have hstill : u.state.isExempted domain = true :=
      List.contains_iff_mem.2 (h.exempted.symm ▸ hdomain)
    cases hexempted.symm.trans hstill
  · refine h.step (hafter.state ▸ h.follows) (hafter.state ▸ .refl _) (by rw [hafter.state])
      (fun _ hx => hx) (List.subset_append_left ..) fun hdomain => Or.inr ⟨?_, e, ?_⟩
    · cases hids : s.overrideIds.get? domain with
      | none => rfl
      | some ids => cases hnew.symm.trans (h.follows.kept domain ids hids)
    · exact List.mem_append_right _ (List.mem_singleton_self _)
  · have hstate : v.state = state := hafter.state
    refine h.step (hstate ▸ h.follows.granted hgranted) ?_ ?_ (List.subset_append_left ..)
      (fun _ hx => hx) fun _ => Or.inl ⟨?_, ids, ?_⟩
    · rw [hstate]
      exact fun other p hp => hgranted.get?_of_eq_some hp
    · rw [hstate, hgranted.exemptedDomains]
    · exact List.mem_append_right _ (List.mem_singleton_self _)
    · rw [hstate]
      exact hgranted.get?_self

/-- After a restoration every exempted domain is placed, or it has failed for want of a pair. -/
theorem guarantees_restore_placed {manager : Manager} {w : World}
    (htable : manager.config.idScheme = .table) (h : InOrder w.state) :
    Guarantees .calm (fun _ => False) manager.restore w fun outcome after =>
      ∀ report, outcome.1 = .ok report →
        ∀ domain ∈ w.state.exemptedDomains,
          domain ∈ report.restored ∧ Placed manager.config w.state after.state domain
            ∨ w.state.overrideIds.get? domain = none ∧ ∃ e, (domain, .ids e) ∈ report.failed := by
  refine guarantees_restore (guarantees_restoreAll htable Regime.quiet_calm id
    (Placing manager.config w.state) (fun _ => Placing manager.config w.state []) ?_ ?_ ?_ ?_ ?_ ?_)
  · rintro e after - - report ⟨⟩
  · intro reconciled after hend
    have hstate : after.state = w.state := by
      cases hend with
      | agreed _ hafter => exact hafter.state
      | done hafter => exact hafter.state
    refine ⟨?_, by rw [hstate], fun domain hdomain hleft => absurd hdomain hleft⟩
    rw [hstate]
    exact .refl _ h
  · intro domain rest report u result v hplacing hend
    exact hplacing.next hend
  · exact fun report u hplacing => hplacing
  · intro domain rest report u result v hplacing hend
    have hstate : v.state = u.state := by
      cases hend with
      | skipped _ hafter => exact hafter.state
      | failed _ _ hafter => exact hafter.state
      | done _ _ hafter => exact hafter.state
    exact ⟨hstate ▸ hplacing.follows, hstate ▸ hplacing.exempted, by
      rw [hstate]
      exact hplacing.placed⟩
  · rintro report after hplacing _ ⟨⟩ domain hdomain
    refine (hplacing.placed domain hdomain (List.not_mem_nil)).imp_left ?_
    rintro ⟨hrestored, ids, hids⟩
    exact ⟨hrestored, hplacing.follows.placed hids⟩

end

/-! ## The next manager -/

-- Otherwise the elaborator tries to compute the name of an unknown input.
attribute [local irreducible] Manager.domainOf

/-- What the next manager does about the ids of the compiled rules, where `state` is persisted. -/
structure StaticConduct (env : Environment) (state : PersistedState) : Prop where
  /-- Whatever is added, also by calls that fail or hang, is the pair of a domain, or the hashed ids
  of one that has no pair; and a pair is above the compiled rules iff the one is that its domain had
  before, if any. -/
  added : ∀ turn : Turn, turn.manager.config.idScheme = .table →
    (Regime.rough True).Admits turn.step.schedule →
    ∀ e rules, (e, Call.addRules rules) ∈ turn.calls env → ∃ domain ids,
      rules = pairRules turn.manager.config domain ids
      ∧ (e.pair? domain = none ∧ ids = .hashed domain
        ∨ e.pair? domain = some ids
          ∧ ((∀ rule ∈ rules, turn.manager.config.maxStaticRuleId < rule.id)
            ↔ ∀ p, state.overrideIds.get? domain = some p →
              AboveStatic turn.manager.config p))
  /-- Without failures a domain is exempted at its pair, unless it has none and is refused one. -/
  exempted : ∀ (manager : Manager) (input domain : String) (time : UInt64) (schedule : Schedule),
    manager.config.idScheme = .table → Regime.calm.Admits schedule →
    Manager.domainOf input = .ok domain → ∃ result manager' after state',
      (env.at time schedule).run (manager.setDomainBlocking input false)
        = (some (result, manager'), after)
      ∧ after.persisted? = some state'
      ∧ ((∃ t, result = .ok t ∧ Placed manager.config state state' domain)
        ∨ ∃ e, result = .error (.ids e) ∧ state.overrideIds.get? domain = none
          ∧ state'.overrideIds.get? domain = none ∧ after.engine = env.engine)
  /-- Without failures every exempted domain is restored at its pair, unless it has none and is
  refused one. -/
  restored : ∀ (manager : Manager) (time : UInt64) (schedule : Schedule),
    manager.config.idScheme = .table → Regime.calm.Admits schedule →
    ∃ result manager' after state',
      (env.at time schedule).run manager.restore = (some (result, manager'), after)
      ∧ after.persisted? = some state'
      ∧ ∀ report, result = .ok report → ∀ domain ∈ state.exemptedDomains,
        domain ∈ report.restored ∧ Placed manager.config state state' domain
          ∨ state.overrideIds.get? domain = none ∧ ∃ e, (domain, .ids e) ∈ report.failed

/-- Where the table is in order, the next manager conducts itself so. -/
theorem staticConduct_of_inOrder {v : Versioned} (hholds : view.Holds env.store v)
    (hinOrder : InOrder v.state) : StaticConduct env v.state := by
  refine ⟨?_, ?_, ?_⟩
  · intro turn htable hadmits
    exact turn.forall_added (Regime.quiet_rough True) htable hadmits hholds hinOrder
  · intro manager input domain time schedule htable hcalm hdomain
    obtain ⟨⟨result, manager'⟩, after, v', hrun, hheld, -, hsettled⟩ :=
      (guarantees_setDomainBlocking_calm manager false (w := ⟨env.engine, v, []⟩)
        hdomain).exists_run (env.at time schedule) hholds hcalm
    refine ⟨result, manager', after, v'.state, hrun, persisted?_of_holds hheld, ?_⟩
    have htableAfter := hsettled.overrideIds
    have hresult := hsettled.result
    have hengine := hsettled.engine
    rcases settle_placed htable hinOrder with ⟨t, hok, ids, hids, hiff⟩ | ⟨e, hrefused, hnone⟩
    · refine Or.inl ⟨t, hresult.trans hok, ids, ?_, hiff⟩
      rwa [← htableAfter] at hids
    · rw [hrefused] at htableAfter hresult hengine
      exact Or.inr ⟨e, hresult, hnone, by rwa [htableAfter], hengine⟩
  · intro manager time schedule htable hcalm
    obtain ⟨⟨result, manager'⟩, after, v', hrun, hheld, hplaced⟩ :=
      (guarantees_restore_placed (w := ⟨env.engine, v, []⟩) htable hinOrder).exists_run
        (env.at time schedule) hholds hcalm
    exact ⟨result, manager', after, v'.state, hrun, persisted?_of_holds hheld, hplaced⟩

/-- A store starts with a table in order, and managers under the table scheme are opened on it one
after another, each with settings of its own. Whatever they did, and whichever of their calls failed
or were the last one before the process stopped: the next manager adds rules above its compiled
ones, but for the domains whose pairs were there before and are not; and a domain without a pair
that cannot have one above them fails with an error of the ids. -/
theorem added_above_iff {v : Versioned} (turns : List Turn)
    (htable : ∀ turn ∈ turns, turn.manager.config.idScheme = .table)
    (hadmits : ∀ turn ∈ turns, (Regime.rough True).Admits turn.step.schedule)
    (hholds : view.Holds env.store v) (hinOrder : InOrder v.state) :
    ∃ state, (finish turns env).persisted? = some state
      ∧ StaticConduct (finish turns env) state := by
  obtain ⟨after, hafter, hafterInOrder⟩ := keeps_finish stable_inOrder (Regime.quiet_rough True)
    turns htable hadmits ⟨v, hholds, hinOrder⟩
  exact ⟨after.state, persisted?_of_holds hafter, staticConduct_of_inOrder hafter hafterInOrder⟩

end

/-- The standard settings, with more compiled rules than ids below the table. -/
def grownConfig : Config :=
  { Config.standard with maxStaticRuleId := 20000000 }

/-- After two managers have given away pairs, one with more compiled rules refuses a third domain
any. -/
theorem refused_below_static :
    ∃ manager' after state state',
      ((finish stoppedTurns freshEnvironment).at 2 .faultless).run
          (Manager.setDomainBlocking ⟨grownConfig, .new 1000⟩ "c.com" false)
        = (some (.error (.ids (.overlap 20000000 16777216)), manager'), after)
      ∧ (finish stoppedTurns freshEnvironment).persisted? = some state
      ∧ after.persisted? = some state'
      ∧ state.overrideIds.get? "c.com" = none
      ∧ state'.overrideIds.get? "c.com" = none
      ∧ after.engine = (finish stoppedTurns freshEnvironment).engine := by
  have hoverlap : failure? (((finish stoppedTurns freshEnvironment).at 2 .faultless).run
        (Manager.setDomainBlocking ⟨grownConfig, .new 1000⟩ "c.com" false)).1
      = some (.ids (.overlap 20000000 16777216)) := by
    decide +kernel
  have hholds : Store.View.memory.Holds freshEnvironment.store .unwritten := rfl
  obtain ⟨state, hstate, hconduct⟩ := added_above_iff stoppedTurns table_stoppedTurns
    admits_stoppedTurns hholds ⟨IdTable.wellFormed_new _, UInt32.le_refl _⟩
  obtain ⟨result, manager', after, state', hrun, hafter, hend⟩ :=
    hconduct.exempted ⟨grownConfig, .new 1000⟩ "c.com" "c.com" 2 .faultless rfl
      (Regime.admits_faultless _) (by decide +kernel)
  rw [hrun] at hoverlap
  obtain rfl := eq_error_of_failure? hoverlap
  rcases hend with ⟨t, hok, -⟩ | ⟨e, -, hnone, hnone', hengine⟩
  · cases hok
  · exact ⟨manager', after, state, state', hrun, hstate, hafter, hnone, hnone', hengine⟩

/-- A domain is exempted, the compiled rules grow beyond its pair, and the next manager restores the
rules of the domain among them. -/
theorem restored_below_static :
    ∃ t manager₁ env₁ report manager₂ env₂,
      freshEnvironment.run (Manager.setDomainBlocking ⟨.standard, .new 1000⟩ "x.com" false)
        = (some (.ok t, manager₁), env₁)
      ∧ ({ env₁ with engine := env₁.engine.clearRules }.at 1 .faultless).run
          (Manager.restore ⟨grownConfig, .new 1000⟩)
        = (some (.ok report, manager₂), env₂)
      ∧ report.failed = []
      ∧ env₂.engine.rule? 16777216 = some (.allowInitiator 16777216 1000000 "x.com")
      ∧ 16777216 ≤ grownConfig.maxStaticRuleId := by
  have hcalm := Regime.admits_faultless .calm
  have hholds : Store.View.memory.Holds freshEnvironment.store .unwritten := rfl
  have hstart : Tracks .memory .standard ⟨[], .new IdTable.defaultBase⟩ ⟨.standard, .new 1000⟩
      freshEnvironment .unwritten :=
    ⟨rfl, hholds, .of_nothing (IdTable.wellFormed_new _) rfl fun _ => rfl, rfl, .nil⟩
  obtain ⟨result, manager₁, env₁, v₁, hrun, hresult, hrulesets, hafter⟩ :=
    hstart.toggle rfl hcalm "x.com" false
  obtain ⟨-, hheld, hmatched, htells, hnodup⟩ := hafter
  -- The engine starts anew, so that nothing is left in it but the ruleset.
  have hhealable : Healable grownConfig env₁.engine.clearRules v₁.state := by
    refine ⟨hmatched.wellFormed, hmatched.covered, fun id rule hrule => ?_, ?_⟩
    · cases (Engine.rule?_clearRules ..).symm.trans hrule
    · show env₁.engine.rulesets.contains "ruleset_1" = true
      rw [hrulesets]
      rfl
  obtain ⟨report, manager₂, env₂, v₂, hrestore, hfailed, -, -, -, hrestored, htells', -⟩ :=
    exists_restored ⟨grownConfig, .new 1000⟩
      ({ env₁ with engine := env₁.engine.clearRules }.at 1 .faultless) rfl hheld hcalm hhealable
      hnodup
  rw [htells] at htells'
  have hexempted : v₂.state.exemptedDomains = ["x.com"] :=
    (congrArg Roster.domains htells').trans (by decide +kernel)
  have hids : v₂.state.overrideIds.get? "x.com" = some ⟨16777216, 16777217⟩ :=
    (congrArg (·.table.get? "x.com") htells').trans (by decide +kernel)
  have hok : ∃ t, result = .ok t := by
    have hgranted : (Roster.toggle .standard ⟨[], .new IdTable.defaultBase⟩ "x.com"
        false).1.toOption.isSome = true := by
      decide +kernel
    rw [hresult] at hgranted
    cases result with
    | ok t => exact ⟨t, rfl⟩
    | error e => cases hgranted
  obtain ⟨t, rfl⟩ := hok
  refine ⟨t, manager₁, env₁, report, manager₂, env₂, hrun, hrestore, hfailed, ?_, by decide⟩
  refine (hrestored.mirrors _ _).2 ⟨"x.com", _, ⟨?_, hids⟩, mem_pairRules.2 (Or.inl rfl), rfl⟩
  rw [PersistedState.isExempted, hexempted]
  rfl

end Blocklist.Override
