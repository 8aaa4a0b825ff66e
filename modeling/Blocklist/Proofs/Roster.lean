import Mathlib.Data.List.Forall2
import Blocklist.Proofs.Calm
import Blocklist.Proofs.Healing
import Blocklist.Proofs.Matching

set_option autoImplicit false

/-! # The exempted domains as an ordered set

Without failures, managers are an ordered set of domains and a table of their pairs (`Roster`): an
exempted domain is appended, a blocked one deleted, and nothing else is to be seen in the list, the
table, the engine, the answers to questions and the transitions. Restoring the engine, also a new
one, changes nothing of that (`stages_refine_roster`). -/

namespace Blocklist.Override

/-! ## Ordered sets -/

/-- An ordered set of domains, and the pairs that were given to domains so far. -/
structure Roster where
  domains : List String
  table : IdTable

/-- The domains after one was blocked or exempted. -/
def toggled (domains : List String) (domain : String) (blocked : Bool) : List String :=
  if blocked then domains.erase domain
  else if domain ∈ domains then domains
  else domains ++ [domain]

namespace Roster

/-- The table in which a domain has a pair if it is to be exempted. -/
def supplied (config : Config) (roster : Roster) (domain : String) (blocked : Bool) :
    Except IdError IdTable :=
  if blocked || (roster.table.get? domain).isSome then .ok roster.table
  else (allocation config roster.table domain).map (·.2)

/-- Blocks a domain or exempts it. -/
def toggleDomain (config : Config) (roster : Roster) (domain : String) (blocked : Bool) :
    Except OverrideError Transition × Roster :=
  match roster.supplied config domain blocked with
  | .error e => (.error (.ids e), roster)
  | .ok table =>
    let domains := toggled roster.domains domain blocked
    (.ok ⟨domain, .of (roster.domains.contains domain), .of (domains.contains domain),
      table.get? domain⟩, ⟨domains, table⟩)

/-- Blocks or exempts the domain that an input names. -/
def toggle (config : Config) (roster : Roster) (input : String) (blocked : Bool) :
    Except OverrideError Transition × Roster :=
  match Manager.domainOf input with
  | .error e => (.error e, roster)
  | .ok domain => roster.toggleDomain config domain blocked

/-- The roster that a state tells of. -/
def ofState (state : PersistedState) : Roster :=
  ⟨state.exemptedDomains, state.overrideIds⟩

end Roster

section

variable {domains : List String} {domain : String}

theorem toggled_true (hnodup : domains.Nodup) :
    toggled domains domain true = domains.filter (· != domain) :=
  hnodup.erase_eq_filter domain

theorem exemptedDomains_addExemption (state : PersistedState) (domain : String) :
    (state.addExemption domain).exemptedDomains = toggled state.exemptedDomains domain false := by
  simp only [PersistedState.addExemption, PersistedState.isExempted, toggled, Bool.false_eq_true,
    if_false, List.contains_iff_mem]
  split
  · rfl
  · rfl

theorem nodup_toggled (hnodup : domains.Nodup) (blocked : Bool) :
    (toggled domains domain blocked).Nodup := by
  cases blocked with
  | true => exact hnodup.erase domain
  | false =>
    simp only [toggled, Bool.false_eq_true, if_false]
    split
    · exact hnodup
    · rename_i habsent
      refine List.nodup_append.2 ⟨hnodup, List.pairwise_singleton .., ?_⟩
      rintro other hother _ hlast rfl
      exact habsent (List.mem_singleton.1 hlast ▸ hother)

/-- After a toggle a domain is in the set iff it was exempted. -/
theorem contains_toggled (hnodup : domains.Nodup) (blocked : Bool) :
    (toggled domains domain blocked).contains domain = !blocked := by
  rw [Bool.eq_iff_iff, List.contains_iff_mem]
  cases blocked with
  | true => simpa [toggled] using hnodup.not_mem_erase
  | false =>
    simp only [toggled, Bool.false_eq_true, if_false]
    split
    · simpa
    · simp

end

/-! ## Toggles -/

section

variable {config : Config} {engine : Engine} {state state' : PersistedState} {domain : String}

theorem Matched.of_state (h : Matched config engine state)
    (hexempted : state'.exemptedDomains = state.exemptedDomains)
    (htable : state'.overrideIds = state.overrideIds) : Matched config engine state' := by
  have hisExempted : ∀ other, state'.isExempted other = state.isExempted other := by
    intro other
    rw [PersistedState.isExempted, hexempted]
    rfl
  refine ⟨htable ▸ h.wellFormed, fun other hother => ?_, h.mirrors.of_owns_iff fun other p => ?_⟩
  · rw [htable]
    exact h.covered other (hisExempted other ▸ hother)
  · rw [Owns, Owns, hisExempted, htable]

/-- What a toggle without failures leads to is what the roster says. -/
structure Advances (config : Config) (domain : String) (blocked : Bool) (engine : Engine)
    (state : PersistedState) (s : Settlement) : Prop where
  roster : (Roster.ofState state).toggleDomain config domain blocked = (s.result, .ofState s.state)
  matched : Matched config s.engine s.state
  nodup : s.state.exemptedDomains.Nodup
  rulesets : s.engine.rulesets = engine.rulesets

theorem Matched.advances_block (h : Matched config engine state) (htable : config.idScheme = .table)
    (hnodup : state.exemptedDomains.Nodup) :
    Advances config domain true engine state (settle config domain true engine state) := by
  have hids : blockedIds config state domain = state.overrideIds.get? domain := by
    rw [blockedIds_of_table htable, h.covered.touchedIds_eq]
  have hmatched : Matched config (engine.removeRules
      ((blockedIds config state domain).elim [] IdPair.toList)) (state.removeExemption domain) := by
    rw [blockedIds_of_table htable]
    exact (h.of_blocked 0).of_state rfl rfl
  refine ⟨?_, hmatched, hnodup.filter _, rfl⟩
  rw [settle, if_pos rfl, hids, Roster.toggleDomain, Roster.supplied, Bool.true_or, if_pos rfl]
  show (Except.ok (Transition.mk domain _ (.of (List.contains _ domain)) _), Roster.mk _ _) = _
  rw [show (Roster.ofState state).domains = state.exemptedDomains from rfl,
    contains_toggled hnodup, toggled_true hnodup]
  rfl

/-- A domain that is to be exempted has its pair in the table that an exemption prepares. -/
theorem supplied_false (htable : config.idScheme = .table) (state : PersistedState)
    (domain : String) :
    (Roster.ofState state).supplied config domain false
      = (prepare config domain state).map fun (_, _, prepared) => prepared.overrideIds := by
  rw [Roster.supplied, Bool.false_or, prepare, knownIds?_of_table htable, Roster.ofState]
  cases state.overrideIds.get? domain with
  | some ids => rfl
  | none =>
    rw [if_neg (by simp)]
    cases allocation config state.overrideIds domain with
    | error e => rfl
    | ok granted => rfl

theorem Matched.advances_exempt (h : Matched config engine state)
    (htable : config.idScheme = .table)
    (hnodup : state.exemptedDomains.Nodup) :
    Advances config domain false engine state (settle config domain false engine state) := by
  have hsupplied := supplied_false htable state domain
  rw [settle, if_neg Bool.false_ne_true]
  cases hprepare : prepare config domain state with
  | error e =>
    rw [hprepare] at hsupplied
    refine ⟨?_, h, hnodup, rfl⟩
    rw [Roster.toggleDomain, hsupplied]
    rfl
  | ok granted =>
    obtain ⟨ids, stale, prepared⟩ := granted
    rw [hprepare] at hsupplied
    have hgranted := (prepare_eq_ok_iff htable).1 hprepare
    obtain rfl := h.covered.stale_eq_none hgranted
    obtain ⟨installed, hinstalled⟩ :=
      exists_installed config domain (hgranted.proper h.wellFormed) none engine
    have hadded := hinstalled
    rw [Installed] at hadded
    simp only [hadded]
    have hmatched := (h.granted hgranted).installed hgranted.get?_self hinstalled 0
    have hexempted : (prepared.addExemption domain).exemptedDomains
        = toggled state.exemptedDomains domain false := by
      rw [exemptedDomains_addExemption, hgranted.exemptedDomains]
    refine ⟨?_, hmatched.of_state rfl rfl, ?_, hinstalled.rulesets⟩
    · rw [Roster.toggleDomain, hsupplied]
      show (Except.ok (Transition.mk domain _ (.of (List.contains _ domain))
        (prepared.overrideIds.get? domain)), Roster.mk _ _) = _
      rw [Roster.ofState, Roster.ofState, hexempted, PersistedState.overrideIds_addExemption,
        hgranted.get?_self, contains_toggled hnodup]
      rfl
    · rw [hexempted]
      exact nodup_toggled hnodup false

theorem Matched.advances (h : Matched config engine state) (htable : config.idScheme = .table)
    (hnodup : state.exemptedDomains.Nodup) (domain : String) (blocked : Bool) :
    Advances config domain blocked engine state (settle config domain blocked engine state) := by
  cases blocked with
  | true => exact h.advances_block htable hnodup
  | false => exact h.advances_exempt htable hnodup

end

/-! ## Questions -/

-- Otherwise the elaborator tries to compute the name of an unknown input.
attribute [local irreducible] Manager.domainOf

section

variable {regime : Regime} {halted : World → Prop} {w : World}

theorem guarantees_isExempted (input : String) :
    Guarantees .calm halted (Manager.isExempted input).run w fun result after =>
      result = (Manager.domainOf input).map w.state.isExempted ∧ w.Stays after := by
  rw [Manager.isExempted, guarantees_attempt_bind, guarantees_attempt_mk]
  cases Manager.domainOf input with
  | error e => exact ⟨rfl, .refl w⟩
  | ok domain =>
    simp only
    rw [guarantees_attempt_bind]
    exact guarantees_loadState Regime.quiet_calm (fun _ hafter => ⟨rfl, hafter⟩)
      (fun _ _ hdisturbs => absurd hdisturbs Regime.not_disturbs_calm) fun _ hhangs => hhangs.elim

theorem guarantees_exemptions (manager : Manager) :
    Guarantees .calm halted manager.exemptions.run w fun result after =>
      result = .ok (w.state.exemptedDomains.map fun domain =>
        ⟨domain, Manager.liveIds manager.config w.state domain⟩) ∧ w.Stays after := by
  rw [Manager.exemptions, guarantees_attempt_bind]
  exact guarantees_loadState Regime.quiet_calm (fun _ hafter => ⟨rfl, hafter⟩)
    (fun _ _ hdisturbs => absurd hdisturbs Regime.not_disturbs_calm) fun _ hhangs => hhangs.elim

end

/-! ## Uses -/

/-- What is done with a manager. A restart drops all session rules, and a new manager restores
them. -/
inductive Use where
  | toggle (input : String) (blocked : Bool)
  | restore
  | restart

/-- What comes of a use. -/
inductive Reply where
  | toggled (result : Except OverrideError Transition)
  | restored (result : Except OverrideError RestoreReport)

namespace Use

/-- Whether a use restores the engine. -/
def Restores : Use → Prop
  | toggle _ _ => False
  | restore | restart => True

/-- The engine on which a use starts. -/
def engine (engine : Engine) : Use → Engine
  | toggle _ _ | restore => engine
  | restart => engine.clearRules

/-- The use as a program that ends with the manager after it. -/
def program (manager : Manager) : Use → Run (Reply × Manager)
  | toggle input blocked => do
    let (result, manager) ← manager.setDomainBlocking input blocked
    return (.toggled result, manager)
  | restore => do
    let (result, manager) ← manager.restore
    return (.restored result, manager)
  | restart => do
    let manager : Manager := ⟨manager.config, .new manager.config.statusTtl.toNat⟩
    let (result, manager) ← manager.restore
    return (.restored result, manager)

end Use

/-- A use, and the time and the faults that it meets. -/
structure Occasion where
  use : Use
  time : UInt64
  schedule : Schedule

/-- What came of a use, with the manager and the environment after it. -/
structure Stage where
  reply : Reply
  manager : Manager
  after : Environment

/-- Carries out a use; there is no manager after it if it hangs. -/
def Occasion.perform (occasion : Occasion) (manager : Manager) (env : Environment) :
    Option (Reply × Manager) × Environment :=
  ({ env with engine := occasion.use.engine env.engine }.at occasion.time occasion.schedule).run
    (occasion.use.program manager)

/-- The stages of a run, as far as it comes. -/
def stages : List Occasion → Manager → Environment → List Stage
  | [], _, _ => []
  | occasion :: rest, manager, env =>
    match occasion.perform manager env with
    | (some (reply, manager), after) => ⟨reply, manager, after⟩ :: stages rest manager after
    | (none, _) => []

namespace Roster

/-- The transition or the refusal that a use answers, if it is a toggle, and the roster after it. -/
def use (config : Config) (roster : Roster) :
    Use → Option (Except OverrideError Transition) × Roster
  | .toggle input blocked =>
    let (result, roster) := roster.toggle config input blocked
    (some result, roster)
  | .restore | .restart => (none, roster)

/-- What the uses answer one after another, and the roster after each. -/
def trace (config : Config) (roster : Roster) :
    List Use → List (Option (Except OverrideError Transition) × Roster)
  | [] => []
  | use :: rest => roster.use config use :: (roster.use config use).2.trace config rest

end Roster

/-- A toggle answers what the roster says, and a restoration succeeds for every domain. -/
def Reply.Agrees : Reply → Option (Except OverrideError Transition) → Prop
  | toggled result, expected => expected = some result
  | restored result, expected =>
    expected = none ∧ ∃ report, result = .ok report ∧ report.failed = []

/-- All that is to be seen of a manager and its surroundings is as a roster says. -/
structure Shown (config : Config) (roster : Roster) (manager : Manager) (env : Environment) :
    Prop where
  nodup : roster.domains.Nodup
  persisted : ∃ state, env.persisted? = some state
    ∧ state.exemptedDomains = roster.domains ∧ state.overrideIds = roster.table
  rules : ∀ id rule, env.engine.rule? id = some rule ↔ ∃ domain ∈ roster.domains, ∃ ids,
    roster.table.get? domain = some ids ∧ rule ∈ pairRules config domain ids ∧ rule.id = id
  isExempted : ∀ input time schedule, Regime.calm.Admits schedule →
    ((env.at time schedule).run (Manager.isExempted input).run).1
      = some ((Manager.domainOf input).map (roster.domains.contains ·))
  exemptions : ∀ time schedule, Regime.calm.Admits schedule → ∃ listed,
    ((env.at time schedule).run manager.exemptions.run).1 = some (.ok listed)
    ∧ listed.map Exemption.domain = roster.domains
    ∧ ∀ x ∈ listed, roster.table.get? x.domain = some x.ids
      ∧ ∀ rule ∈ pairRules config x.domain x.ids, env.engine.rule? rule.id = some rule

/-- A manager and its surroundings are where a roster is. -/
structure Tracks (view : Store.View) (config : Config) (roster : Roster) (manager : Manager)
    (env : Environment) (v : Versioned) : Prop where
  sameConfig : manager.config = config
  holds : view.Holds env.store v
  matched : Matched config env.engine v.state
  tells : .ofState v.state = roster
  nodup : v.state.exemptedDomains.Nodup

section

variable {view : Store.View} {config : Config} {roster : Roster} {manager : Manager}
  {env : Environment} {v : Versioned}

theorem Matched.liveIds_eq {engine : Engine} {state : PersistedState} {domain : String}
    (h : Matched config engine state) (htable : config.idScheme = .table)
    (hexempted : state.isExempted domain = true) :
    state.overrideIds.get? domain = some (Manager.liveIds config state domain) := by
  obtain ⟨ids, hids⟩ := h.covered domain hexempted
  rw [Manager.liveIds, knownIds?_of_table htable, hids]
  rfl

theorem Tracks.shown (h : Tracks view config roster manager env v)
    (htable : config.idScheme = .table) : Shown config roster manager env := by
  obtain ⟨hconfig, hholds, hmatched, rfl, hnodup⟩ := h
  refine ⟨hnodup, ⟨v.state, persisted?_of_holds hholds, rfl, rfl⟩, ?_, ?_, ?_⟩
  · intro id rule
    rw [hmatched.mirrors id rule]
    constructor
    · rintro ⟨domain, ids, howns, hrule⟩
      exact ⟨domain, List.contains_iff_mem.1 howns.1, ids, howns.2, hrule⟩
    · rintro ⟨domain, hdomain, ids, hids, hrule⟩
      exact ⟨domain, ids, ⟨List.contains_iff_mem.2 hdomain, hids⟩, hrule⟩
  · intro input time schedule hcalm
    obtain ⟨result, after, -, hrun, -, rfl, -⟩ :=
      (guarantees_isExempted (w := ⟨env.engine, v, []⟩) input).exists_run (env.at time schedule)
        hholds hcalm
    rw [hrun]
    rfl
  · intro time schedule hcalm
    obtain ⟨result, after, -, hrun, -, rfl, -⟩ :=
      (guarantees_exemptions (w := ⟨env.engine, v, []⟩) manager).exists_run (env.at time schedule)
        hholds hcalm
    refine ⟨_, congrArg Prod.fst hrun, ?_, ?_⟩
    · rw [List.map_map]
      exact List.map_id _
    · intro x hx
      obtain ⟨domain, hdomain, rfl⟩ := List.mem_map.1 hx
      have hexempted : v.state.isExempted domain = true := List.contains_iff_mem.2 hdomain
      have hids := hmatched.liveIds_eq htable hexempted
      rw [hconfig]
      refine ⟨hids, fun rule hrule => ?_⟩
      exact (hmatched.mirrors rule.id rule).2 ⟨domain, _, ⟨hexempted, hids⟩, hrule, rfl⟩

/-- A toggle takes the manager where it takes the roster. -/
theorem Tracks.toggle (h : Tracks view config roster manager env v)
    (htable : config.idScheme = .table) (hcalm : Regime.calm.Admits env.schedule) (input : String)
    (blocked : Bool) :
    ∃ result manager' after v',
      env.run (manager.setDomainBlocking input blocked) = (some (result, manager'), after)
      ∧ (roster.toggle config input blocked).1 = result
      ∧ after.engine.rulesets = env.engine.rulesets
      ∧ Tracks view config (roster.toggle config input blocked).2 manager' after v' := by
  obtain ⟨rfl, hholds, hmatched, rfl, hnodup⟩ := h
  cases hdomain : Manager.domainOf input with
  | error e =>
    rw [setDomainBlocking_of_error hdomain, Roster.toggle, hdomain]
    exact ⟨_, _, env, v, rfl, rfl, rfl, rfl, hholds, hmatched, rfl, hnodup⟩
  | ok domain =>
    obtain ⟨⟨result, manager'⟩, after, v', hrun, hheld, rfl, hsettled⟩ :=
      (guarantees_setDomainBlocking_calm manager blocked (w := ⟨env.engine, v, []⟩)
        hdomain).exists_run env hholds hcalm
    have hadvances := hmatched.advances htable hnodup domain blocked
    have hengine : after.engine
        = (settle manager.config domain blocked env.engine v.state).engine :=
      hsettled.engine
    have hexempted : v'.state.exemptedDomains
        = (settle manager.config domain blocked env.engine v.state).state.exemptedDomains :=
      hsettled.exemptedDomains
    have htableAfter : v'.state.overrideIds
        = (settle manager.config domain blocked env.engine v.state).state.overrideIds :=
      hsettled.overrideIds
    rw [Roster.toggle, hdomain]
    simp only [hadvances.roster]
    refine ⟨result, manager.forget, after, v', hrun, hsettled.result.symm, ?_, rfl, hheld, ?_, ?_,
      ?_⟩
    · rw [hengine]
      exact hadvances.rulesets
    · rw [hengine]
      exact hadvances.matched.of_state hexempted htableAfter
    · rw [Roster.ofState, hexempted, htableAfter]
      rfl
    · rw [hexempted]
      exact hadvances.nodup

theorem Matched.healable {engine : Engine} {state : PersistedState}
    (h : Matched config engine state)
    (hknown : engine.rulesets.contains config.rulesetId = true) :
    Healable config engine state where
  wellFormed := h.wellFormed
  covered := h.covered
  owned := by
    intro id rule hrule
    obtain ⟨domain, ids, howns, hmem, rfl⟩ := (h.mirrors id rule).1 hrule
    exact ⟨domain, ids, howns.2, id_mem_of_mem_pairRules hmem⟩
  known := hknown

/-- An engine that has lost its rules can be healed. -/
theorem Healable.clearRules {engine : Engine} {state : PersistedState}
    (h : Healable config engine state) : Healable config engine.clearRules state where
  wellFormed := h.wellFormed
  covered := h.covered
  owned := by
    intro id rule hrule
    rw [Engine.rule?_clearRules] at hrule
    cases hrule
  known := h.known

/-- A restoration brings the manager where the state tells that the roster is. -/
theorem exists_restored (manager : Manager) (env : Environment)
    (htable : manager.config.idScheme = .table) (hholds : view.Holds env.store v)
    (hcalm : Regime.calm.Admits env.schedule) (h : Healable manager.config env.engine v.state)
    (hnodup : v.state.exemptedDomains.Nodup) :
    ∃ report manager' after v',
      env.run manager.restore = (some (.ok report, manager'), after)
      ∧ report.failed = []
      ∧ after.engine.rulesets.contains manager.config.rulesetId = true
      ∧ Tracks view manager.config (.ofState v.state) manager' after v' := by
  obtain ⟨outcome, after, v', hrun, hheld, report, rfl, hhealing⟩ :=
    (guarantees_restore_healing (w := ⟨env.engine, v, []⟩) htable h).exists_run env hholds hcalm
  have hstate : v'.state = v.state := hhealing.state
  refine ⟨report, manager.forget, after, v', hrun, hhealing.failed, hhealing.healable.known, rfl,
    hheld, ?_, by rw [hstate], by rwa [hstate]⟩
  rw [hstate]
  exact ⟨h.wellFormed, h.covered, hhealing.mirrors⟩

/-- A use takes the manager where it takes the roster. -/
theorem Tracks.use (h : Tracks view config roster manager env v)
    (htable : config.idScheme = .table) (occasion : Occasion)
    (hknown : occasion.use.Restores → env.engine.rulesets.contains config.rulesetId = true)
    (hcalm : Regime.calm.Admits occasion.schedule) :
    ∃ reply manager' after v',
      occasion.perform manager env = (some (reply, manager'), after)
      ∧ reply.Agrees (roster.use config occasion.use).1
      ∧ (env.engine.rulesets.contains config.rulesetId = true →
          after.engine.rulesets.contains config.rulesetId = true)
      ∧ Tracks view config (roster.use config occasion.use).2 manager' after v' := by
  obtain ⟨use, time, schedule⟩ := occasion
  cases use with
  | toggle input blocked =>
    have hat : Tracks view config roster manager (env.at time schedule) v :=
      ⟨h.sameConfig, h.holds, h.matched, h.tells, h.nodup⟩
    obtain ⟨result, manager', after, v', hrun, hresult, hrulesets, hafter⟩ :=
      hat.toggle htable hcalm input blocked
    refine ⟨.toggled result, manager', after, v', ?_, congrArg some hresult, ?_, hafter⟩
    · exact Environment.run_bind_of_eq hrun _
    · rw [hrulesets]
      exact id
  | restore =>
    obtain ⟨rfl, hholds, hmatched, rfl, hnodup⟩ := h
    obtain ⟨report, manager', after, v', hrun, hfailed, hafterKnown, hafter⟩ :=
      exists_restored manager (env.at time schedule) htable hholds hcalm
        (hmatched.healable (hknown trivial)) hnodup
    exact ⟨.restored (.ok report), manager', after, v', Environment.run_bind_of_eq hrun _,
      ⟨rfl, report, rfl, hfailed⟩, fun _ => hafterKnown, hafter⟩
  | restart =>
    obtain ⟨rfl, hholds, hmatched, rfl, hnodup⟩ := h
    have hhealable := (hmatched.healable (hknown trivial)).clearRules
    obtain ⟨report, manager', after, v', hrun, hfailed, hafterKnown, hafter⟩ :=
      exists_restored ⟨manager.config, .new manager.config.statusTtl.toNat⟩
        ({ env with engine := env.engine.clearRules }.at time schedule) htable hholds hcalm
        hhealable hnodup
    exact ⟨.restored (.ok report), manager', after, v', Environment.run_bind_of_eq hrun _,
      ⟨rfl, report, rfl, hfailed⟩, fun _ => hafterKnown, hafter⟩

/-- What comes of a run of uses is what the roster says, stage by stage. -/
theorem Tracks.stages (h : Tracks view config roster manager env v)
    (htable : config.idScheme = .table) (occasions : List Occasion)
    (hknown : ∀ occasion ∈ occasions, occasion.use.Restores →
      env.engine.rulesets.contains config.rulesetId = true)
    (hcalm : ∀ occasion ∈ occasions, Regime.calm.Admits occasion.schedule) :
    List.Forall₂ (fun expected stage => stage.reply.Agrees expected.1
        ∧ Shown config expected.2 stage.manager stage.after)
      (roster.trace config (occasions.map Occasion.use)) (stages occasions manager env) := by
  induction occasions generalizing roster manager env v with
  | nil => exact .nil
  | cons occasion rest ih =>
    rw [List.forall_mem_cons] at hknown hcalm
    obtain ⟨reply, manager', after, v', hperform, hagrees, hkept, hafter⟩ :=
      h.use htable occasion hknown.1 hcalm.1
    rw [Override.stages, hperform]
    refine .cons ⟨hagrees, hafter.shown htable⟩ (ih hafter ?_ hcalm.2)
    intro occasion' hmem hrestores
    exact hkept (hknown.2 occasion' hmem hrestores)

end

/-- A manager starts with nothing exempted and no rules, and no call fails. Whatever toggles,
restorations and restarts it carries out, its replies are those of an ordered set of domains, and
after each of them the persisted list, the table, the session rules and the answers to all
questions are as the set then says. (A restoration needs an engine that knows the ruleset, for
otherwise it could not switch it.) -/
theorem stages_refine_roster {view : Store.View} (manager : Manager) (env : Environment)
    {v : Versioned} (occasions : List Occasion) (htable : manager.config.idScheme = .table)
    (hholds : view.Holds env.store v) (hexempted : v.state.exemptedDomains = [])
    (hw : v.state.overrideIds.WellFormed) (hempty : ∀ id, env.engine.rule? id = none)
    (hknown : ∀ occasion ∈ occasions, occasion.use.Restores →
      env.engine.rulesets.contains manager.config.rulesetId = true)
    (hcalm : ∀ occasion ∈ occasions, Regime.calm.Admits occasion.schedule) :
    List.Forall₂ (fun expected stage => stage.reply.Agrees expected.1
        ∧ Shown manager.config expected.2 stage.manager stage.after)
      (Roster.trace manager.config ⟨[], v.state.overrideIds⟩ (occasions.map Occasion.use))
      (stages occasions manager env) := by
  have hstart : Tracks view manager.config ⟨[], v.state.overrideIds⟩ manager env v := by
    refine ⟨rfl, hholds, .of_nothing hw hexempted hempty, ?_, ?_⟩
    · rw [Roster.ofState, hexempted]
    · rw [hexempted]
      exact .nil
  exact hstart.stages htable occasions hknown hcalm

/-- Two domains, one of them named by an address, a restart, and an input that names no domain. -/
def visits : List Use :=
  [.toggle "https://A.com/news" false, .toggle "b.com" false, .restart, .toggle "a.com." true,
    .toggle "*" false, .toggle "c.com" true]

theorem roster_of_visits :
    (Roster.trace .standard ⟨[], .new IdTable.defaultBase⟩ visits).map (·.2.domains)
        = [["a.com"], ["a.com", "b.com"], ["a.com", "b.com"], ["b.com"], ["b.com"], ["b.com"]]
      ∧ List.Forall₂ (fun expected stage => stage.reply.Agrees expected.1
          ∧ Shown .standard expected.2 stage.manager stage.after)
        (Roster.trace .standard ⟨[], .new IdTable.defaultBase⟩ visits)
        (stages (visits.map (⟨·, 0, .faultless⟩)) ⟨.standard, .new 1000⟩
          ⟨.withRulesets ["ruleset_1"], .memory .empty, 0, .faultless, []⟩) := by
  refine ⟨by decide +kernel, ?_⟩
  have hholds : Store.View.memory.Holds (.memory .empty) .unwritten := rfl
  refine stages_refine_roster ⟨.standard, .new 1000⟩
    ⟨.withRulesets ["ruleset_1"], .memory .empty, 0, .faultless, []⟩
    (visits.map (⟨·, 0, .faultless⟩)) rfl hholds rfl (IdTable.wellFormed_new _) (fun _ => rfl)
    (fun _ _ _ => rfl) ?_
  simpa [visits] using Regime.admits_faultless .calm

end Blocklist.Override
