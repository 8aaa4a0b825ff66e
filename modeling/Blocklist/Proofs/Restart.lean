import Blocklist.Override.Session
import Blocklist.Proofs.Roster
import Blocklist.Proofs.Separation

set_option autoImplicit false

/-! # Restarts are invisible

Without failures, what is answered to requests is a function of a `Ledger`, the switch and the
roster that the state tells of. After a restoration, and after every request from then on, the
engine holds what the ledger says and nothing else, and a remembered status is the one that would be
read. So it makes no difference whether one session answers all requests or each has a session of
its own (`restarts_invisible`). -/

namespace Blocklist.Override

/-! ## Ledgers -/

/-- What a state tells, but for the time of its last change. -/
structure Ledger where
  enabled : Bool
  roster : Roster

namespace Response

/-- The response without the time of the last change. -/
def undated : Response → Response
  | status s => status { s with lastUpdate := none }
  | response => response

/-- The response to the outcome of an operation. -/
def ofResult {α : Type} (toResponse : α → Response) : Except OverrideError α → Response
  | .ok a => toResponse a
  | .error e => ofError e

end Response

namespace Ledger

/-- The ledger that a state tells of. -/
def ofState (state : PersistedState) : Ledger :=
  ⟨state.enabled, .ofState state⟩

/-- What is answered to a request, without times, and the ledger after it. -/
def answer (config : Config) (ledger : Ledger) : Request → Response × Ledger
  | .getStatus =>
    (.status ⟨ledger.enabled, ledger.roster.domains,
      if ledger.enabled then [config.rulesetId] else [], none⟩, ledger)
  | .setDomainBlocking input blocked =>
    let (result, roster) := ledger.roster.toggle config input blocked
    (.ofResult .transition result, { ledger with roster })
  | .setGlobalEnabled enabled => (.globalEnabled enabled, { ledger with enabled })
  | .isDomainExempted input =>
    (.ofResult (.exempted input) ((Manager.domainOf input).map (ledger.roster.domains.contains ·)),
      ledger)
  | .listExemptions =>
    (.exemptions (ledger.roster.domains.filterMap fun domain =>
      (ledger.roster.table.get? domain).map (⟨domain, ·⟩)), ledger)

/-- What is answered to requests one after another, and the ledger after them. -/
def trace (config : Config) (ledger : Ledger) : List Request → List Response × Ledger
  | [] => ([], ledger)
  | request :: rest =>
    let (response, ledger) := ledger.answer config request
    let (responses, last) := ledger.trace config rest
    (response :: responses, last)

end Ledger

/-! ## Rulesets -/

/-- The engine of a session before it has rules: new, and its ruleset switched. -/
def bareEngine (config : Config) (enabled : Bool) : Engine :=
  switched (.withRulesets [config.rulesetId]) config.rulesetId enabled

theorem enabledRulesets_bareEngine (config : Config) (enabled : Bool) :
    (bareEngine config enabled).enabledRulesets
      = if enabled then [config.rulesetId] else [] := by
  have hsize : (bareEngine config enabled).rulesets.toList.length = 1 := by
    simp [bareEngine, switched, Engine.withRulesets, Std.ExtTreeMap.size_insert]
  have hmem : (config.rulesetId, enabled) ∈ (bareEngine config enabled).rulesets.toList := by
    simp [bareEngine, switched, Std.ExtTreeMap.mem_toList_iff_getElem?_eq_some]
  obtain ⟨entry, hentry⟩ := List.length_eq_one_iff.1 hsize
  rw [hentry, List.mem_singleton] at hmem
  rw [Engine.enabledRulesets, hentry, ← hmem]
  cases enabled with
  | true => rfl
  | false => rfl

/-! ## Managers in line with a ledger -/

/-- The state of a manager from which its engine can be restored without a change of the state. -/
structure Restorable (state : PersistedState) : Prop where
  wellFormed : state.overrideIds.WellFormed
  covered : Covered state
  nodup : state.exemptedDomains.Nodup

/-- The engine holds what the ledger says and nothing else, and a remembered status is the one that
would be read. -/
structure InLine (config : Config) (ledger : Ledger) (manager : Manager) (engine : Engine)
    (state : PersistedState) : Prop where
  sameConfig : manager.config = config
  tells : .ofState state = ledger
  matched : Matched config engine state
  nodup : state.exemptedDomains.Nodup
  rulesets : engine.rulesets = (bareEngine config state.enabled).rulesets
  remembered : ∀ now s, manager.statusCache.get? now = some s → s = statusOf engine state

section

variable {config : Config} {ledger : Ledger} {manager manager' : Manager} {engine engine' : Engine}
  {state state' : PersistedState} {domain : String} {blocked : Bool}

theorem InLine.restorable (h : InLine config ledger manager engine state) : Restorable state :=
  ⟨h.matched.wellFormed, h.matched.covered, h.nodup⟩

theorem InLine.enabledRulesets (h : InLine config ledger manager engine state) :
    engine.enabledRulesets = if state.enabled then [config.rulesetId] else [] := by
  rw [Engine.enabledRulesets, h.rulesets]
  exact enabledRulesets_bareEngine config state.enabled

/-- The ledger leaves no choice to the engine. -/
theorem InLine.engine_eq (h : InLine config ledger manager engine state)
    (h' : InLine config ledger manager' engine' state') : engine = engine' := by
  obtain ⟨henabled, hroster⟩ := Ledger.mk.inj (h.tells.trans h'.tells.symm)
  obtain ⟨hexempted, htable⟩ := Roster.mk.inj hroster
  have hmatched : Matched config engine' state := h'.matched.of_state hexempted htable
  refine Engine.ext_rule? ?_ fun id => Option.ext fun rule => ?_
  · rw [h.rulesets, h'.rulesets, henabled]
  · rw [h.matched.mirrors, hmatched.mirrors]

/-! ## Toggles -/

theorem enabled_addExemption (state : PersistedState) (domain : String) :
    (state.addExemption domain).enabled = state.enabled := by
  rw [PersistedState.addExemption]
  split
  · rfl
  · rfl

/-- A toggle leaves the switch as it is. -/
theorem enabled_settle : (settle config domain blocked engine state).state.enabled
    = state.enabled := by
  rw [settle]
  split
  · rfl
  · split
    · rfl
    · rename_i hprepare
      have hprepared := congrArg PersistedState.enabled (eq_of_prepare hprepare)
      simp only
      split
      · exact hprepared
      · exact (enabled_addExemption ..).trans hprepared

end

section

variable {config : Config} {ledger : Ledger} {manager : Manager} {w : World}
  {halted : World → Prop}

theorem World.Becomes.inLine {engine : Engine} {state : PersistedState} {after : World}
    (hafter : w.Becomes engine state after) (h : InLine config ledger manager engine state) :
    InLine config ledger manager after.engine after.state := by
  rw [hafter.engine, hafter.state]
  exact h

/-- A manager that has forgotten the status is in line as soon as its engine is. -/
theorem InLine.forget {engine : Engine} {state : PersistedState}
    (hmatched : Matched manager.config engine state) (hnodup : state.exemptedDomains.Nodup)
    (hrulesets : engine.rulesets = (bareEngine manager.config state.enabled).rulesets) :
    InLine manager.config (.ofState state) manager.forget engine state :=
  ⟨rfl, rfl, hmatched, hnodup, hrulesets, fun _ _ hremembered => nomatch hremembered⟩

/-- Where the toggle of a domain leads is what the ledger says. -/
theorem InLine.settled {domain : String} {blocked : Bool}
    {result : Except OverrideError Transition} {after : World}
    (h : InLine config ledger manager w.engine w.state) (htable : config.idScheme = .table)
    (hsettled : Settled (settle config domain blocked w.engine w.state) result after) :
    (ledger.roster.toggleDomain config domain blocked).1 = result
      ∧ InLine config
          { ledger with roster := (ledger.roster.toggleDomain config domain blocked).2 }
          manager.forget after.engine after.state := by
  obtain ⟨rfl, rfl, hmatched, hnodup, hrulesets, -⟩ := h
  have hadvances := hmatched.advances htable hnodup domain blocked
  have henabled : after.state.enabled = w.state.enabled := by
    rw [hsettled.state]
    exact enabled_settle
  have hroster : (Ledger.ofState w.state).roster.toggleDomain manager.config domain blocked
      = (result, .ofState after.state) := by
    rw [hsettled.result, Roster.ofState, hsettled.exemptedDomains, hsettled.overrideIds]
    exact hadvances.roster
  have hinLine : InLine manager.config (.ofState after.state) manager.forget after.engine
      after.state := by
    refine .forget ?_ ?_ ?_
    · rw [hsettled.engine]
      exact hadvances.matched.of_state hsettled.exemptedDomains hsettled.overrideIds
    · rw [hsettled.exemptedDomains]
      exact hadvances.nodup
    · rw [hsettled.engine, hadvances.rulesets, henabled]
      exact hrulesets
  rw [hroster]
  rw [Ledger.ofState, henabled] at hinLine
  exact ⟨rfl, hinLine⟩

/-- The switch leads to where the ledger says. -/
theorem InLine.switched {enabled : Bool} {result : Except OverrideError Unit} {after : World}
    (h : InLine config ledger manager w.engine w.state)
    (hout : SwitchOutcome .calm config enabled w result after) :
    result = .ok ()
      ∧ InLine config { ledger with enabled } manager.forget after.engine after.state := by
  obtain ⟨rfl, rfl, hmatched, hnodup, hrulesets, -⟩ := h
  cases hout with
  | refused _ hcause _ =>
    refine absurd hcause (not_or.2 ⟨id, not_not.2 ?_⟩)
    rw [hrulesets]
    simp [bareEngine, Override.switched]
  | unpersisted _ hdisturbs _ => exact absurd hdisturbs Regime.not_disturbs_calm
  | done now hafter =>
    rw [hafter.engine, hafter.state]
    -- The switch touches neither the rules nor what they are to be.
    have hmatched' : Matched manager.config
        (Override.switched w.engine manager.config.rulesetId enabled)
        ({ w.state with enabled }.touch now) :=
      ⟨hmatched.wellFormed, hmatched.covered, hmatched.mirrors⟩
    have hswitched := congrArg Engine.rulesets
      (switched_switched (.withRulesets [manager.config.rulesetId]) manager.config.rulesetId
        w.state.enabled enabled)
    refine ⟨rfl, .forget hmatched' hnodup ?_⟩
    rw [Override.switched, hrulesets]
    exact hswitched

/-! ## Requests -/

-- Otherwise the elaborator tries to compute the name of an unknown input.
attribute [local irreducible] Manager.domainOf

theorem guarantees_respond {regime : Regime} {α : Type} {toResponse : α → Response}
    {result : Except OverrideError α} {post : Response → World → Prop}
    (h : ∀ after, w.Stays after → post (.ofResult toResponse result) after) :
    Guarantees regime halted (Manager.respond toResponse result) w post := by
  cases result with
  | ok a => exact h w (.refl w)
  | error e =>
    rw [Manager.respond, guarantees_bind]
    exact guarantees_warn h

/-- A manager in line with a ledger answers what the ledger says, and is in line with it again. -/
def Conforms (config : Config) (ledger : Ledger) (request : Request)
    (outcome : Response × Manager) (after : World) : Prop :=
  outcome.1.undated = (ledger.answer config request).1
    ∧ InLine config (ledger.answer config request).2 outcome.2 after.engine after.state

theorem guarantees_getStatus (h : InLine config ledger manager w.engine w.state) :
    Guarantees .calm halted (manager.dispatch .getStatus) w
      (Conforms config ledger .getStatus) := by
  have hanswer : (Response.status (statusOf w.engine w.state)).undated
      = (ledger.answer config .getStatus).1 := by
    rw [← h.tells, statusOf, h.enabledRulesets]
    rfl
  rw [Manager.dispatch, guarantees_bind]
  refine guarantees_status Regime.quiet_calm id ?_ ?_
    fun _ _ hdisturbs => absurd hdisturbs Regime.not_disturbs_calm
  · intro now s after hget hafter
    obtain rfl := h.remembered now s hget
    exact ⟨hanswer, hafter.inLine h⟩
  · intro now after hafter
    refine ⟨hanswer, hafter.inLine { h with remembered := fun later s hget => ?_ }⟩
    rw [Cache.get?_insert] at hget
    split at hget
    · exact (Option.some.inj hget).symm
    · cases hget

theorem guarantees_setDomainBlocking_conforms
    (h : InLine config ledger manager w.engine w.state) (htable : config.idScheme = .table)
    (input : String) (blocked : Bool) :
    Guarantees .calm halted (manager.dispatch (.setDomainBlocking input blocked)) w
      (Conforms config ledger (.setDomainBlocking input blocked)) := by
  have hconfig := h.sameConfig
  rw [Manager.dispatch, guarantees_bind]
  unfold Conforms
  rw [Ledger.answer, Roster.toggle]
  cases hdomain : Manager.domainOf input with
  | error e =>
    refine guarantees_setDomainBlockingWithin_of_error hdomain ?_
    simp only
    rw [guarantees_bind]
    exact guarantees_respond fun after hafter => ⟨rfl, hafter.inLine h⟩
  | ok domain =>
    subst hconfig
    refine (guarantees_setDomainBlockingWithin_calm manager blocked hdomain).imp ?_
    rintro ⟨result, _⟩ settled ⟨rfl, hsettled⟩
    obtain ⟨hresult, hinLine⟩ := h.settled htable hsettled
    simp only
    rw [guarantees_bind]
    refine guarantees_respond fun after hafter => ⟨?_, hafter.inLine hinLine⟩
    rw [hresult]
    cases result with
    | ok t => rfl
    | error e => rfl

theorem guarantees_dispatch (h : InLine config ledger manager w.engine w.state)
    (htable : config.idScheme = .table) (request : Request) :
    Guarantees .calm halted (manager.dispatch request) w (Conforms config ledger request) := by
  cases request with
  | getStatus => exact guarantees_getStatus h
  | setDomainBlocking input blocked =>
    exact guarantees_setDomainBlocking_conforms h htable input blocked
  | setGlobalEnabled enabled =>
    have hconfig := h.sameConfig
    subst hconfig
    rw [Manager.dispatch, guarantees_bind]
    refine guarantees_setGlobalEnabled Regime.quiet_calm id fun result after hout => ?_
    obtain ⟨rfl, hinLine⟩ := h.switched hout
    exact ⟨rfl, hinLine⟩
  | isDomainExempted input =>
    rw [Manager.dispatch, guarantees_bind]
    refine (guarantees_isExempted input).imp ?_
    rintro _ asked ⟨rfl, hasked⟩
    rw [guarantees_bind]
    refine guarantees_respond fun after hafter => ⟨?_, hafter.inLine (hasked.inLine h)⟩
    rw [Ledger.answer, ← h.tells]
    cases Manager.domainOf input with
    | ok domain => rfl
    | error e => rfl
  | listExemptions =>
    rw [Manager.dispatch, guarantees_bind]
    refine (guarantees_exemptions manager).imp ?_
    rintro _ asked ⟨rfl, hasked⟩
    refine ⟨?_, hasked.inLine h⟩
    -- Every exempted domain has its pair in the table.
    have hlisted : w.state.exemptedDomains.filterMap (fun domain =>
          (w.state.overrideIds.get? domain).map (Exemption.mk domain))
        = w.state.exemptedDomains.map fun domain =>
            ⟨domain, Manager.liveIds manager.config w.state domain⟩ := by
      refine List.filterMap_eq_map_iff_forall_eq_some.2 fun domain hdomain => ?_
      rw [h.matched.liveIds_eq htable (List.contains_iff_mem.2 hdomain), h.sameConfig]
      rfl
    rw [← h.tells, ← hlisted]
    rfl

/-! ## Sessions -/

/-- A restoration that succeeds has switched the ruleset to what the state says, and no other. -/
theorem guarantees_restoreAll_rulesets {regime : Regime} (htable : config.idScheme = .table)
    (hquiet : regime.Quiet) (hanswered : ¬ regime.hangs)
    (hknown : w.engine.rulesets.contains config.rulesetId = true) :
    Guarantees regime halted (restoreAll config).run w fun result after =>
      ∀ report, result = .ok report → after.engine.rulesets
        = (switched w.engine config.rulesetId w.state.enabled).rulesets := by
  refine guarantees_restoreAll htable hquiet hanswered
    (fun _ _ u => u.engine.rulesets
      = (switched w.engine config.rulesetId w.state.enabled).rulesets)
    (fun _ _ u => u.engine.rulesets
      = (switched w.engine config.rulesetId w.state.enabled).rulesets)
    (fun _ _ _ _ => nofun) ?_ ?_ (fun _ _ hu => hu) ?_ (fun _ _ hu _ _ => hu)
  · intro reconciled after hout
    cases hout with
    | agreed hagreed hafter => rw [hafter.engine, switched_eq_self hknown hagreed]
    | done hafter => rw [hafter.engine]
  · intro domain rest report u result v hu hout
    exact hout.rulesets.trans hu
  · intro domain rest report u result v hu hout
    exact hout.rulesets.trans hu

/-- The engine that a session starts with can be healed. -/
theorem Restorable.healable {state : PersistedState} (h : Restorable state) :
    Healable config (.withRulesets [config.rulesetId]) state where
  wellFormed := h.wellFormed
  covered := h.covered
  owned := by
    intro id rule hrule
    have hnone : (Engine.withRulesets [config.rulesetId]).rule? id = none :=
      Std.ExtTreeMap.getElem?_empty
    cases hnone.symm.trans hrule
  known := by simp [Engine.withRulesets]

/-- A session restores its engine to what the state says. -/
theorem guarantees_restore_inLine (manager : Manager) (htable : manager.config.idScheme = .table)
    (hengine : w.engine = .withRulesets [manager.config.rulesetId]) (h : Restorable w.state) :
    Guarantees .calm (fun _ => False) manager.restore w fun outcome after =>
      ∃ report, outcome = (.ok report, manager.forget)
        ∧ InLine manager.config (.ofState w.state) manager.forget after.engine after.state := by
  have hhealable : Healable manager.config w.engine w.state := hengine ▸ h.healable
  have hrulesets : Guarantees .calm (fun _ => False) manager.restore w fun outcome after =>
      ∀ report, outcome.1 = .ok report → after.engine.rulesets
        = (switched w.engine manager.config.rulesetId w.state.enabled).rulesets := by
    refine guarantees_restore ((guarantees_restoreAll_rulesets htable Regime.quiet_calm id
      hhealable.known).imp fun result after hafter => ?_)
    cases result with
    | ok report => exact hafter
    | error e => exact hafter
  refine ((guarantees_restore_healing htable hhealable).and hrulesets).imp ?_
  rintro _ after ⟨⟨report, rfl, hhealing⟩, hafter⟩
  have hswitched := hafter report rfl
  refine ⟨report, rfl, ?_⟩
  rw [hhealing.state]
  refine .forget ⟨h.wellFormed, h.covered, hhealing.mirrors⟩ h.nodup ?_
  rw [hswitched, hengine]
  rfl

theorem guarantees_serve (manager : Manager) (htable : manager.config.idScheme = .table)
    (hengine : w.engine = .withRulesets [manager.config.rulesetId]) (h : Restorable w.state)
    (request : Request) :
    Guarantees .calm (fun _ => False) (Session.serve manager request) w fun result after =>
      ∃ response manager', result = .ok response
        ∧ Conforms manager.config (.ofState w.state) request (response, manager') after := by
  rw [Session.serve, guarantees_bind]
  refine (guarantees_restore_inLine manager htable hengine h).imp ?_
  rintro _ restored ⟨report, rfl, hinLine⟩
  simp only
  rw [guarantees_bind]
  refine (guarantees_dispatch hinLine htable request).imp ?_
  rintro ⟨response, manager'⟩ after hconforms
  exact ⟨response, manager', rfl, hconforms⟩

end

/-! ## Runs -/

/-- A request and the time at which it is made. -/
structure Inquiry where
  request : Request
  time : UInt64

/-- The environment of a new session: its engine has the configured ruleset and no rules, and no
call fails. -/
def Environment.anew (env : Environment) (config : Config) (time : UInt64) : Environment :=
  { env with engine := .withRulesets [config.rulesetId] }.at time .faultless

/-- What a manager answers to requests one after another, and the environment after them; nothing
if it hangs. -/
def serveAll : List Inquiry → Manager → Environment → Option (List Response × Environment)
  | [], _, env => some ([], env)
  | x :: rest, manager, env =>
    match (env.at x.time .faultless).run (manager.dispatch x.request) with
    | (some (response, manager), after) =>
      (serveAll rest manager after).map fun (responses, last) => (response :: responses, last)
    | (none, _) => none

/-- One session for all requests: its engine is restored, and then they are answered. -/
def together (config : Config) (time : UInt64) (inquiries : List Inquiry) (env : Environment) :
    Option (List Response × Environment) :=
  match Manager.new config with
  | .ok manager =>
    match (env.anew config time).run manager.restore with
    | (some (.ok _, manager), after) => serveAll inquiries manager after
    | _ => none
  | .error _ => none

/-- A session for each request. -/
def apart (config : Config) : List Inquiry → Environment → Option (List Response × Environment)
  | [], env => some ([], env)
  | x :: rest, env =>
    match Manager.new config with
    | .ok manager =>
      match (env.anew config x.time).run (Session.serve manager x.request) with
      | (some (.ok response), after) =>
        (apart config rest after).map fun (responses, last) => (response :: responses, last)
      | _ => none
    | .error _ => none

section

-- Otherwise the elaborator tries to compute the name of an unknown input.
attribute [local irreducible] Manager.domainOf

variable {view : Store.View} {config : Config} {ledger : Ledger} {manager : Manager}
  {env : Environment} {v : Versioned}

/-- One manager answers what the ledger says. -/
theorem InLine.exists_serveAll (h : InLine config ledger manager env.engine v.state)
    (htable : config.idScheme = .table) (hholds : view.Holds env.store v)
    (inquiries : List Inquiry) :
    ∃ responses last v' manager', serveAll inquiries manager env = some (responses, last)
      ∧ view.Holds last.store v'
      ∧ responses.map Response.undated
          = (ledger.trace config (inquiries.map Inquiry.request)).1
      ∧ InLine config (ledger.trace config (inquiries.map Inquiry.request)).2 manager'
          last.engine v'.state := by
  induction inquiries generalizing ledger manager env v with
  | nil => exact ⟨[], env, v, manager, rfl, hholds, rfl, h⟩
  | cons x rest ih =>
    obtain ⟨⟨response, manager'⟩, after, v', hrun, hheld, hresponse, hafter⟩ :=
      (guarantees_dispatch (w := ⟨env.engine, v, []⟩) h htable x.request).exists_run
        (env.at x.time .faultless) hholds (Regime.admits_faultless _)
    obtain ⟨responses, last, v'', manager'', hrest, hheld', hresponses, hlast⟩ := ih hafter hheld
    refine ⟨response :: responses, last, v'', manager'', ?_, hheld', ?_, hlast⟩
    · rw [serveAll, hrun]
      simp only [hrest, Option.map_some]
    · rw [List.map_cons, hresponse, hresponses]
      rfl

/-- Sessions of one request each answer what the ledger says, and the last one is in line with it.
-/
theorem Restorable.exists_apart (h : Restorable v.state) (hvalid : config.fault? = none)
    (htable : config.idScheme = .table) (hholds : view.Holds env.store v)
    {inquiries : List Inquiry} (hsome : inquiries ≠ []) :
    ∃ responses last v' manager', apart config inquiries env = some (responses, last)
      ∧ view.Holds last.store v'
      ∧ responses.map Response.undated
          = ((Ledger.ofState v.state).trace config (inquiries.map Inquiry.request)).1
      ∧ InLine config
          ((Ledger.ofState v.state).trace config (inquiries.map Inquiry.request)).2 manager'
          last.engine v'.state := by
  induction inquiries generalizing env v with
  | nil => exact absurd rfl hsome
  | cons x rest ih =>
    obtain ⟨_, after, v', hrun, hheld, response, manager', rfl, hresponse, hafter⟩ :=
      (guarantees_serve (w := ⟨(env.anew config x.time).engine, v, []⟩)
        ⟨config, .new config.statusTtl.toNat⟩ htable rfl h x.request).exists_run
        (env.anew config x.time) hholds (Regime.admits_faultless _)
    rw [apart, Manager.new_eq_ok hvalid]
    simp only [hrun]
    cases rest with
    | nil =>
      refine ⟨[response], after, v', manager', rfl, hheld, ?_, hafter⟩
      rw [List.map_singleton, hresponse]
      rfl
    | cons y rest =>
      obtain ⟨responses, last, v'', manager'', hrest, hheld', hresponses, hlast⟩ :=
        ih hafter.restorable hheld (List.cons_ne_nil y rest)
      rw [hafter.tells] at hresponses hlast
      refine ⟨response :: responses, last, v'', manager'', ?_, hheld', ?_, hlast⟩
      · simp only [hrest, Option.map_some]
      · rw [List.map_cons, hresponse, hresponses]
        rfl

/-- One session answers what the ledger says. -/
theorem Restorable.exists_together (h : Restorable v.state) (hvalid : config.fault? = none)
    (htable : config.idScheme = .table) (hholds : view.Holds env.store v) (time : UInt64)
    (inquiries : List Inquiry) :
    ∃ responses last v' manager', together config time inquiries env = some (responses, last)
      ∧ view.Holds last.store v'
      ∧ responses.map Response.undated
          = ((Ledger.ofState v.state).trace config (inquiries.map Inquiry.request)).1
      ∧ InLine config
          ((Ledger.ofState v.state).trace config (inquiries.map Inquiry.request)).2 manager'
          last.engine v'.state := by
  obtain ⟨_, after, v', hrun, hheld, report, rfl, hafter⟩ :=
    (guarantees_restore_inLine (w := ⟨(env.anew config time).engine, v, []⟩)
      ⟨config, .new config.statusTtl.toNat⟩ htable rfl h).exists_run
      (env.anew config time) hholds (Regime.admits_faultless _)
  rw [together, Manager.new_eq_ok hvalid]
  simp only [hrun]
  exact hafter.exists_serveAll htable hheld inquiries

end

/-- A store holds a state whose exempted domains are distinct and have pairs in a table as it is
built by allocations. Requests are made to one session with a new engine, and the same requests,
maybe at other times, each to a session of its own with a new engine. Without failures both answer
the same but for times, and what the ledger of the state says; and afterwards the exempted domains,
the switch and the table in the store are the same, and so are the engines, with their session rules
and their rulesets. -/
theorem restarts_invisible {view : Store.View} {config : Config} {env : Environment}
    {v : Versioned} {inquiries inquiries' : List Inquiry} (time : UInt64)
    (hvalid : config.fault? = none) (htable : config.idScheme = .table)
    (hholds : view.Holds env.store v) (hwellFormed : v.state.overrideIds.WellFormed)
    (hcovered : Covered v.state) (hnodup : v.state.exemptedDomains.Nodup)
    (hsame : inquiries'.map Inquiry.request = inquiries.map Inquiry.request)
    (hsome : inquiries' ≠ []) :
    ∃ responses last u responses' last' u',
      together config time inquiries env = some (responses, last)
      ∧ view.Holds last.store u
      ∧ apart config inquiries' env = some (responses', last')
      ∧ view.Holds last'.store u'
      ∧ (responses.map Response.undated, Ledger.ofState u.state)
          = (Ledger.ofState v.state).trace config (inquiries.map Inquiry.request)
      ∧ responses'.map Response.undated = responses.map Response.undated
      ∧ u'.state.exemptedDomains = u.state.exemptedDomains
      ∧ u'.state.enabled = u.state.enabled
      ∧ u'.state.overrideIds = u.state.overrideIds
      ∧ last'.engine = last.engine := by
  have hstart : Restorable v.state := ⟨hwellFormed, hcovered, hnodup⟩
  obtain ⟨responses, last, u, manager, htogether, hheld, hresponses, hlast⟩ :=
    hstart.exists_together hvalid htable hholds time inquiries
  obtain ⟨responses', last', u', manager', hapart, hheld', hresponses', hlast'⟩ :=
    hstart.exists_apart hvalid htable hholds hsome
  rw [hsame] at hresponses' hlast'
  obtain ⟨henabled, hroster⟩ := Ledger.mk.inj (hlast'.tells.trans hlast.tells.symm)
  obtain ⟨hexempted, htable'⟩ := Roster.mk.inj hroster
  exact ⟨responses, last, u, responses', last', u', htogether, hheld, hapart, hheld',
    Prod.ext hresponses hlast.tells, hresponses'.trans hresponses.symm, hexempted, henabled,
    htable', hlast'.engine_eq hlast⟩

/-- A state with one exempted domain, and its pair in the table. -/
def oneExempted : PersistedState :=
  (migratingState "old.com").removeExemption "old.com"

/-- Another domain is exempted, the first one blocked, and the switch turned off. -/
def errands (time : UInt64) : List Inquiry :=
  [⟨.getStatus, time⟩, ⟨.setDomainBlocking "https://A.com/news" false, time⟩,
    ⟨.setDomainBlocking "new.com" true, time⟩, ⟨.isDomainExempted "a.com", time⟩,
    ⟨.setGlobalEnabled false, time⟩, ⟨.listExemptions, time⟩, ⟨.getStatus, time⟩]

theorem restarts_invisible_errands :
    Config.standard.fault? = none ∧ oneExempted.exemptedDomains = ["new.com"]
      ∧ ∃ responses last u responses' last' u',
        together .standard 0 (errands 0)
            (⟨.withRulesets [], .memory ⟨1, oneExempted⟩, 0, .faultless, []⟩ : Environment)
          = some (responses, last)
        ∧ Store.View.memory.Holds last.store u
        ∧ apart .standard (errands 5000)
            (⟨.withRulesets [], .memory ⟨1, oneExempted⟩, 0, .faultless, []⟩ : Environment)
          = some (responses', last')
        ∧ Store.View.memory.Holds last'.store u'
        ∧ (responses.map Response.undated, Ledger.ofState u.state)
            = (Ledger.ofState oneExempted).trace .standard ((errands 0).map Inquiry.request)
        ∧ responses'.map Response.undated = responses.map Response.undated
        ∧ u'.state.exemptedDomains = u.state.exemptedDomains
        ∧ u'.state.enabled = u.state.enabled
        ∧ u'.state.overrideIds = u.state.overrideIds
        ∧ last'.engine = last.engine := by
  have hvalid : Config.standard.fault? = none := by decide +kernel
  have hexempted : oneExempted.exemptedDomains = ["new.com"] := by decide +kernel
  have hholds : Store.View.memory.Holds (.memory ⟨1, oneExempted⟩) ⟨1, oneExempted⟩ := rfl
  have hcovered : Covered oneExempted := by
    intro domain hdomain
    rw [PersistedState.isExempted, hexempted, List.contains_iff_mem, List.mem_singleton] at hdomain
    subst hdomain
    exact ⟨⟨16777216, 16777217⟩, get?_migratingState "old.com" "new.com"⟩
  have hnodup : oneExempted.exemptedDomains.Nodup := by
    rw [hexempted]
    exact List.pairwise_singleton ..
  exact ⟨hvalid, hexempted, restarts_invisible (v := ⟨1, oneExempted⟩) 0 hvalid rfl hholds
    (wellFormed_migratingState "old.com") hcovered hnodup rfl (List.cons_ne_nil _ _)⟩

end Blocklist.Override
