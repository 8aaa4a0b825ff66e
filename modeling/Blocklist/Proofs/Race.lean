import Blocklist.Proofs.Calm
import Blocklist.Proofs.Separation

set_option autoImplicit false

/-! # Toggles that lose a race

Somebody else changes the state just before a toggle commits. The toggle then makes up for what it
has done to the engine, but it goes by the state that it read before: the domain has its rules iff
it was exempted then, whatever has won (`live_after_lost_race`). -/

namespace Blocklist.Override

variable {α β : Type}

/-! ## Runs that end -/

/-- A run of a program ends with a result and in an environment of which something holds. -/
def Ends (p : Run α) (env : Environment) (post : α → Environment → Prop) : Prop :=
  ∃ a after, env.run p = (some a, after) ∧ post a after

theorem Ends.bind {p : Run α} {f : α → Run β} {env : Environment} {post : β → Environment → Prop}
    (h : Ends p env fun a after => Ends (f a) after post) : Ends (p >>= f) env post := by
  obtain ⟨a, after, hrun, b, last, hlast, hpost⟩ := h
  exact ⟨b, last, (Environment.run_bind_of_eq hrun f).trans hlast, hpost⟩

theorem Ends.attempt_bind {a : Attempt α} {f : α → Attempt β} {env : Environment}
    {post : Except OverrideError β → Environment → Prop}
    (h : Ends a.run env fun result after => match result with
      | .ok x => Ends (f x).run after post
      | .error e => post (.error e) after) : Ends (a >>= f).run env post := by
  rw [ExceptT.run_bind]
  obtain ⟨result, after, hrun, hpost⟩ := h
  refine Ends.bind ⟨result, after, hrun, ?_⟩
  cases result with
  | ok x => exact hpost
  | error e => exact ⟨_, after, rfl, hpost⟩

theorem Ends.attempt_lift {p : Run α} {env : Environment}
    {post : Except OverrideError α → Environment → Prop}
    (h : Ends p env fun a => post (.ok a)) : Ends (liftM p : Attempt α).run env post := by
  obtain ⟨a, after, hrun, hpost⟩ := h
  exact Ends.bind ⟨a, after, hrun, _, _, rfl, hpost⟩

theorem Ends.outcome {a : Attempt α} {env : Environment}
    {post : Except OverrideError (Except OverrideError α) → Environment → Prop}
    (h : Ends a.run env fun result => post (.ok result)) : Ends (outcome a).run env post :=
  .attempt_lift h

theorem ends_onEngine {call : Run (Except EngineError α)} {env : Environment}
    {post : Except OverrideError α → Environment → Prop}
    (h : Ends call env fun result => post (result.mapError .engine)) :
    Ends (onEngine call).run env post := by
  obtain ⟨a, after, hrun, hpost⟩ := h
  exact Ends.bind ⟨a, after, hrun, _, _, rfl, hpost⟩

theorem ends_onStore {call : Run (Except StoreError α)} {env : Environment}
    {post : Except OverrideError α → Environment → Prop}
    (h : Ends call env fun result => post (result.mapError .ofStore)) :
    Ends (onStore call).run env post := by
  obtain ⟨a, after, hrun, hpost⟩ := h
  exact Ends.bind ⟨a, after, hrun, _, _, rfl, hpost⟩

theorem Environment.run_call {c : Call} {next : Option c.Answer → Run α} {env after : Environment}
    {reply : Option c.Answer} (h : Environment.answer c env = (reply, after)) :
    env.run (.call c next : Run α) = after.run (next reply) := by
  have hstep : env.run (.call c next : Run α)
      = (Environment.answer c env).2.run (next (Environment.answer c env).1) := rfl
  rw [hstep, h]

/-- A program that is one call runs as the call is answered. -/
theorem Environment.run_ask (c : Call) (env : Environment) :
    env.run (Program.ask (I := interface) c) = Environment.answer c env := by
  cases hanswer : Environment.answer c env with
  | mk reply after =>
    refine (run_call hanswer).trans ?_
    cases reply with
    | none => rfl
    | some a => rfl

theorem ends_ask {c : Call} {env after : Environment} {a : c.Answer}
    {post : c.Answer → Environment → Prop} (h : Environment.answer c env = (some a, after))
    (hpost : post a after) : Ends (Program.ask (I := interface) c) env post :=
  ⟨a, after, Environment.run_call h, hpost⟩

/-! ## Faults at commits alone -/

/-- Nothing goes wrong at any call but the commits, and the next of these meet the given faults. -/
structure Faces (view : Store.View) (faults : List Fault) (env : Environment) (engine : Engine)
    (v : Versioned) : Prop where
  engine : env.engine = engine
  holds : view.Holds env.store v
  calm : ∀ kind ≠ .commit, ∀ fault ∈ env.schedule kind, Regime.calm.Allows fault
  commits : env.schedule .commit = faults

namespace Faces

variable {view : Store.View} {faults : List Fault} {env : Environment} {engine : Engine}
  {v : Versioned}

/-- A call that is no commit goes through. -/
theorem next (h : Faces view faults env engine v) (kind : CallKind) (hkind : kind ≠ .commit) :
    ∃ schedule, env.schedule.next kind = (.none, schedule)
      ∧ ∀ env' : Environment, env'.schedule = schedule → view.Holds env'.store v →
          Faces view faults env' env'.engine v := by
  rw [Schedule.next]
  split
  · exact ⟨_, rfl, fun env' hschedule hholds =>
      ⟨rfl, hholds, hschedule ▸ h.calm, hschedule ▸ h.commits⟩⟩
  · rename_i fault rest hfaults
    have hcalm := h.calm kind hkind
    rw [hfaults, List.forall_mem_cons] at hcalm
    have hnone : fault = .none := by
      cases fault with
      | none => rfl
      | unavailable | rejected | hang => exact hcalm.1.elim
      | outside change => exact hcalm.1.elim
    subst hnone
    refine ⟨_, rfl, fun env' hschedule hholds => ⟨rfl, hholds, ?_, ?_⟩⟩
    · intro other hother fault hfault
      rw [hschedule, Schedule.set] at hfault
      split at hfault
      · exact hcalm.2 fault hfault
      · exact h.calm other hother fault hfault
    · rw [hschedule, Schedule.set, if_neg hkind.symm]
      exact h.commits

theorem clock (h : Faces view faults env engine v) {post : UInt64 → Environment → Prop}
    (hpost : ∀ now after, Faces view faults after engine v → post now after) :
    Ends clock env post :=
  ends_ask rfl (hpost _ env h)

theorem warn (h : Faces view faults env engine v) {warning : Warning}
    {post : Unit → Environment → Prop}
    (hpost : ∀ after, Faces view faults after engine v → post () after) :
    Ends (warn warning) env post :=
  ends_ask rfl (hpost _ ⟨h.engine, h.holds, h.calm, h.commits⟩)

theorem onEngine (h : Faces view faults env engine v) (kind : CallKind) (hkind : kind ≠ .commit)
    (event : Event) (act : Engine → Except EngineError α × Engine)
    {result : Except EngineError α} {engine' : Engine} (hact : act engine = (result, engine')) :
    ∃ after, Environment.onEngine kind event act env = (some result, after)
      ∧ Faces view faults after engine' v := by
  obtain ⟨schedule, hnext, hfaces⟩ := h.next kind hkind
  refine ⟨{ env.see event with schedule, engine := engine' }, ?_, hfaces _ rfl h.holds⟩
  rw [Environment.onEngine, hnext]
  simp only [Environment.see, h.engine, hact]

theorem removeRules (h : Faces view faults env engine v) (ids : List UInt32)
    {post : Except EngineError Unit → Environment → Prop}
    (hpost : ∀ after, Faces view faults after (engine.removeRules ids) v → post (.ok ()) after) :
    Ends (removeRules ids) env post := by
  obtain ⟨after, hanswer, hafter⟩ := h.onEngine .removeRules nofun (.removeRules ids)
    (fun engine => (.ok (), engine.removeRules ids)) rfl
  exact ends_ask hanswer (hpost after hafter)

theorem addRules (h : Faces view faults env engine v) {rules : List Rule} {engine' : Engine}
    (hadd : engine.addRules rules = .ok engine')
    {post : Except EngineError Unit → Environment → Prop}
    (hpost : ∀ after, Faces view faults after engine' v → post (.ok ()) after) :
    Ends (addRules rules) env post := by
  obtain ⟨after, hanswer, hafter⟩ := h.onEngine .addRules nofun
    (.addRules (rules.map Rule.id)) (·.addSessionRules rules)
    (Engine.addSessionRules_eq_ok_iff.2 hadd)
  exact ends_ask hanswer (hpost after hafter)

theorem load (h : Faces view faults env engine v)
    {post : Except OverrideError Versioned → Environment → Prop}
    (hpost : ∀ after, Faces view faults after engine v → post (.ok v) after) :
    Ends load.run env post := by
  obtain ⟨schedule, hnext, hfaces⟩ := h.next .load nofun
  obtain ⟨hloaded, hheld⟩ := view.load h.holds
  have hafter := hfaces { env with schedule, store := env.store.load.2 } rfl hheld
  have hanswer : Environment.onStore .load Store.load env
      = (some (.ok v), { env with schedule, store := env.store.load.2 }) := by
    rw [Environment.onStore, hnext]
    simp only [hloaded]
  rw [← h.engine] at hpost
  exact ends_onStore (ends_ask hanswer (hpost _ hafter))

theorem loadState (h : Faces view faults env engine v)
    {post : Except OverrideError PersistedState → Environment → Prop}
    (hpost : ∀ after, Faces view faults after engine v → post (.ok v.state) after) :
    Ends loadState.run env post :=
  .attempt_bind (h.load fun after hafter => ⟨_, after, rfl, hpost after hafter⟩)

/-- Somebody else changes the state just before the commit, which finds a conflict. -/
theorem commit {change : PersistedState → PersistedState}
    (h : Faces view (.outside change :: faults) env engine v) (state : PersistedState)
    {post : Except OverrideError UInt64 → Environment → Prop}
    (hpost : ∀ after, Faces view faults after engine (changed change v) →
      post (.error (.raceLost v.revision (v.revision + 1))) after) :
    Ends (commit v.revision state).run env post := by
  have hnext : env.schedule.next .commit = (.outside change, env.schedule.set .commit faults) := by
    rw [Schedule.next, h.commits]
  obtain ⟨hreply, hheld⟩ := view.commit (view.holds_change h.holds change) v.revision state
  rw [replace_changed] at hreply hheld
  let after : Environment := { env with
    schedule := env.schedule.set .commit faults
    store := ((env.store.change change).2.commit v.revision state).2 }
  have hanswer : Environment.onStore .commit (Store.commit v.revision state) env
      = (some (.error (.conflict v.revision (v.revision + 1))), after) := by
    rw [Environment.onStore, hnext]
    simp only [hreply]
    rfl
  have hcommits : after.schedule .commit = faults := by
    simp [after, Schedule.set]
  refine ends_onStore (ends_ask hanswer (hpost after ⟨h.engine, hheld, ?_, hcommits⟩))
  intro kind hkind fault hfault
  rw [show after.schedule kind = env.schedule kind from if_neg hkind] at hfault
  exact h.calm kind hkind fault hfault

theorem update {change : PersistedState → PersistedState}
    (h : Faces view (.outside change :: faults) env engine v)
    (own : PersistedState → PersistedState)
    {post : Except OverrideError UInt64 → Environment → Prop}
    (hpost : ∀ after, Faces view faults after engine (changed change v) →
      post (.error (.raceLost v.revision (v.revision + 1))) after) :
    Ends (update own).run env post :=
  .attempt_bind (h.load fun _ hread => .attempt_bind (.attempt_lift (hread.clock fun _ _ htimed =>
    htimed.commit _ hpost)))

end Faces

/-! ## Toggles -/

/-- A toggle that lost its race: the engine holds the pair of the domain if it was exempted when the
toggle began, else nothing at its ids. -/
structure RaceLost (view : Store.View) (config : Config) (domain : String) (ids : IdPair)
    (engine : Engine) (v won : Versioned) (result : Except OverrideError Transition)
    (after : Environment) : Prop where
  result : result = .error (.raceLost v.revision (v.revision + 1))
  holds : view.Holds after.store won
  installed : v.state.isExempted domain = true →
    Installed config domain ids none engine after.engine
  removed : v.state.isExempted domain = false → after.engine = engine.removeRules ids.toList

section

variable {view : Store.View} {config : Config} {domain : String} {ids : IdPair}
  {engine installed : Engine} {env : Environment} {v : Versioned}
  {change : PersistedState → PersistedState} {later : List Fault}

/-- The exempted domain keeps its pair, and a domain that was not exempted loses it again. -/
theorem Faces.settleExempted (h : Faces view (.outside change :: later) env installed v)
    (hinstalled : Installed config domain ids none engine installed) :
    Ends (settleExempted domain ids (v.state.isExempted domain) (.ok ())).run env
      (RaceLost view config domain ids engine v (changed change v)) := by
  rw [Override.settleExempted]
  refine .attempt_bind (.outcome (h.update _ fun lost hlost => ?_))
  simp only
  cases hexempted : v.state.isExempted domain with
  | true =>
    exact ⟨_, lost, rfl, rfl, hlost.holds, fun _ => hlost.engine ▸ hinstalled, by simp [hexempted]⟩
  | false =>
    simp only [Bool.not_false, if_true]
    refine .attempt_bind (.attempt_lift ?_)
    rw [withdrawPair]
    refine .bind (hlost.removeRules ids.toList fun _ hremoved => hremoved.warn fun last hlast => ?_)
    refine ⟨_, last, rfl, rfl, hlast.holds, by simp [hexempted], fun _ => ?_⟩
    rw [hlast.engine, hinstalled.removeRules]

theorem Faces.exempt (h : Faces view (.outside change :: later) env engine v)
    (htable : config.idScheme = .table) (hids : v.state.overrideIds.get? domain = some ids)
    (hinstalled : Installed config domain ids none engine installed) :
    Ends (exempt config domain).run env
      (RaceLost view config domain ids engine v (changed change v)) := by
  have hgranted : ∀ granted, Faces view (.outside change :: later) granted engine v →
      Ends (exemptWith config domain ids none).run granted
        (RaceLost view config domain ids engine v (changed change v)) := by
    intro granted hgranted
    rw [exemptWith]
    refine .attempt_bind (hgranted.loadState fun read hread => .attempt_bind (.attempt_lift ?_))
    rw [installPair]
    refine .bind (hread.removeRules _ fun removed hremoved => .bind ?_)
    exact hremoved.addRules hinstalled fun added hadded =>
      ⟨.ok (), added, rfl, hadded.settleExempted hinstalled⟩
  rw [exempt_eq]
  refine .attempt_bind ?_
  unfold idsForInstall
  rw [htable]
  -- The domain has its pair, so there is nothing to commit yet.
  refine .attempt_bind (h.load fun read hread => ?_)
  simp only [hids]
  exact ⟨.ok (ids, none), read, rfl, hgranted read hread⟩

/-- The rules of an exempted domain are removed and added again. -/
theorem Faces.unexempt (h : Faces view (.outside change :: later) env engine v)
    (htable : config.idScheme = .table) (hids : v.state.overrideIds.get? domain = some ids)
    (hinstalled : v.state.isExempted domain = true →
      Installed config domain ids none engine installed) :
    Ends (unexempt config domain).run env
      (RaceLost view config domain ids engine v (changed change v)) := by
  unfold Override.unexempt
  refine .attempt_bind (h.loadState fun read hread => ?_)
  simp only [(knownIds?_of_table htable ..).trans hids, Option.some_or]
  refine .attempt_bind (ends_onEngine (hread.removeRules _ fun removed hremoved => ?_))
  simp only [mapError_ok]
  refine .attempt_bind (.outcome (hremoved.update _ fun lost hlost => ?_))
  simp only
  cases hexempted : v.state.isExempted domain with
  | false =>
    exact ⟨_, lost, rfl, rfl, hlost.holds, by simp [hexempted], fun _ => hlost.engine⟩
  | true =>
    have hadd := hinstalled hexempted
    rw [Installed, clearedIds_none] at hadd
    simp only
    refine .attempt_bind (.attempt_lift (hlost.addRules hadd fun last hlast => ?_))
    refine ⟨_, last, rfl, rfl, hlast.holds, fun _ => ?_, by simp [hexempted]⟩
    rw [hlast.engine]
    exact hinstalled hexempted

/-- Whichever way a domain is toggled, and whether or not its rules were there. -/
theorem Faces.toggle (h : Faces view (.outside change :: later) env engine v)
    (htable : config.idScheme = .table) (hids : v.state.overrideIds.get? domain = some ids)
    (blocked : Bool)
    (haccepted : blocked = false ∨ v.state.isExempted domain = true →
      Installed config domain ids none engine installed) :
    Ends (toggle config domain blocked).run env
      (RaceLost view config domain ids engine v (changed change v)) := by
  rw [Override.toggle]
  cases blocked with
  | true => exact h.unexempt htable hids fun hexempted => haccepted (Or.inr hexempted)
  | false => exact h.exempt htable hids (haccepted (Or.inl rfl))

theorem RaceLost.live_iff {won : Versioned} {result : Except OverrideError Transition}
    {after : Environment} (h : RaceLost view config domain ids engine v won result after)
    (hids : v.state.overrideIds.get? domain = some ids) :
    Live config after.engine v.state domain ↔ v.state.isExempted domain = true := by
  rw [Override.live_iff hids]
  cases hexempted : v.state.isExempted domain with
  | true =>
    have hinstalled := h.installed hexempted
    refine iff_of_true (fun rule hrule => ?_) rfl
    exact (hinstalled.rule?_iff rule.id rule).2 (Or.inl ⟨hrule, rfl⟩)
  | false =>
    refine iff_of_false (fun hlive => ?_) Bool.false_ne_true
    obtain ⟨rule, hrule, hid⟩ := exists_mem_pairRules config domain
      (IdPair.mem_toList.2 (Or.inl rfl) : ids.incoming ∈ ids.toList)
    have hremoved : after.engine.rule? rule.id = none := by
      rw [h.removed hexempted, Engine.rule?_removeRules,
        if_pos (id_mem_of_mem_pairRules hrule)]
    cases hremoved.symm.trans (hlive rule hrule)

end

section

-- Otherwise the elaborator tries to compute the name of an unknown input.
attribute [local irreducible] Manager.domainOf

/-- A domain has a pair, and somebody else changes the state just before a toggle of the domain
commits; nothing else goes wrong. The toggle then fails, the other change stands, and the rules of
the domain are in the engine iff it was exempted before. So they are there iff the other change
leaves the domain exempted just in case that change leaves the domain as it was. -/
theorem live_after_lost_race {view : Store.View} {manager : Manager} {env : Environment}
    {v : Versioned} {input domain : String} {ids : IdPair} {installed : Engine}
    {change : PersistedState → PersistedState} {later : List Fault} (blocked : Bool)
    (htable : manager.config.idScheme = .table) (hdomain : Manager.domainOf input = .ok domain)
    (hholds : view.Holds env.store v) (hids : v.state.overrideIds.get? domain = some ids)
    (haccepted : blocked = false ∨ v.state.isExempted domain = true →
      Installed manager.config domain ids none env.engine installed)
    (hcalm : ∀ kind ≠ .commit, ∀ fault ∈ env.schedule kind, Regime.calm.Allows fault)
    (hcommit : env.schedule .commit = .outside change :: later) :
    ∃ after, env.run (manager.setDomainBlocking input blocked)
        = (some (.error (.raceLost v.revision (v.revision + 1)), manager.forget), after)
      ∧ view.Holds after.store (changed change v)
      ∧ (Live manager.config after.engine v.state domain ↔ v.state.isExempted domain = true)
      ∧ ((Live manager.config after.engine v.state domain
            ↔ (change v.state).isExempted domain = true)
          ↔ (change v.state).isExempted domain = v.state.isExempted domain) := by
  have hfaces : Faces view (.outside change :: later) env env.engine v :=
    ⟨rfl, hholds, hcalm, hcommit⟩
  obtain ⟨result, after, hrun, hlost⟩ := hfaces.toggle htable hids blocked haccepted
  obtain rfl := hlost.result
  have hlive := hlost.live_iff hids
  refine ⟨after, ?_, hlost.holds, hlive, ?_⟩
  · rw [setDomainBlocking_of_ok hdomain, Environment.run_bind_of_eq hrun]
    rfl
  · rw [hlive, ← Bool.eq_iff_iff]
    exact eq_comm

end

/-- An exempted domain, its rules, and somebody who is about to block it. -/
def contested : Environment where
  engine := {
    rulesets := (Engine.withRulesets ["ruleset_1"]).rulesets
    sessionRules := ((∅ : Std.ExtTreeMap UInt32 Rule).insert 16777216
      (.allowInitiator 16777216 1000000 "new.com")).insert 16777217
      (.allowRequest 16777217 1000000 "new.com") }
  store := .memory ⟨1, migratingState "old.com"⟩
  time := 0
  schedule := Schedule.faultless.set .commit [.outside (·.removeExemption "new.com")]
  events := []

theorem get?_contested : (migratingState "old.com").overrideIds.get? "new.com"
    = some ⟨16777216, 16777217⟩ :=
  get?_migratingState ..

theorem faces_contested : Faces .memory [.outside (·.removeExemption "new.com")] contested
    contested.engine ⟨1, migratingState "old.com"⟩ where
  engine := rfl
  holds := rfl
  calm := by
    intro kind hkind fault hfault
    rw [show contested.schedule kind = [] from if_neg hkind] at hfault
    cases hfault
  commits := rfl

theorem exists_installed_contested : ∃ installed,
    Installed .standard "new.com" ⟨16777216, 16777217⟩ none contested.engine installed :=
  exists_installed .standard "new.com"
    ((wellFormed_migratingState "old.com").proper get?_contested) none contested.engine

/-- The domain is to be blocked, and somebody else blocks it first. -/
theorem live_after_contested_block :
    Manager.domainOf "new.com" = .ok "new.com"
      ∧ (migratingState "old.com").overrideIds.get? "new.com" = some ⟨16777216, 16777217⟩
      ∧ ∃ after,
        contested.run (Manager.setDomainBlocking ⟨.standard, .new 1000⟩ "new.com" true)
          = (some (.error (.raceLost 1 2), Manager.forget ⟨.standard, .new 1000⟩), after)
        ∧ Store.View.memory.Holds after.store
            (changed (·.removeExemption "new.com") ⟨1, migratingState "old.com"⟩)
        ∧ (Live .standard after.engine (migratingState "old.com") "new.com"
            ↔ (migratingState "old.com").isExempted "new.com" = true)
        ∧ ((Live .standard after.engine (migratingState "old.com") "new.com"
              ↔ ((migratingState "old.com").removeExemption "new.com").isExempted "new.com" = true)
            ↔ ((migratingState "old.com").removeExemption "new.com").isExempted "new.com"
              = (migratingState "old.com").isExempted "new.com") := by
  have hdomain : Manager.domainOf "new.com" = .ok "new.com" := rfl
  obtain ⟨installed, hinstalled⟩ := exists_installed_contested
  exact ⟨hdomain, get?_contested,
    live_after_lost_race true rfl hdomain faces_contested.holds
      get?_contested (fun _ => hinstalled) faces_contested.calm faces_contested.commits⟩

/-- In the end the domain is blocked, and its rules are still there. -/
theorem live_although_blocked :
    Live .standard contested.engine (migratingState "old.com") "new.com"
      ∧ (migratingState "old.com").isExempted "new.com" = true
      ∧ ∃ after state,
        contested.run (Manager.setDomainBlocking ⟨.standard, .new 1000⟩ "new.com" true)
          = (some (.error (.raceLost 1 2), Manager.forget ⟨.standard, .new 1000⟩), after)
        ∧ after.persisted? = some state
        ∧ state.isExempted "new.com" = false
        ∧ state.overrideIds = (migratingState "old.com").overrideIds
        ∧ Live .standard after.engine state "new.com" := by
  have hdomain : Manager.domainOf "new.com" = .ok "new.com" := rfl
  obtain ⟨installed, hinstalled⟩ := exists_installed_contested
  obtain ⟨result, after, hrun, hlost⟩ :=
    faces_contested.toggle rfl get?_contested true fun _ => hinstalled
  obtain rfl := hlost.result
  refine ⟨(live_iff get?_contested).2 (by decide +kernel), rfl, after,
    (migratingState "old.com").removeExemption "new.com", ?_, persisted?_of_holds hlost.holds,
    by decide +kernel, rfl, (hlost.live_iff get?_contested).2 rfl⟩
  rw [setDomainBlocking_of_ok hdomain, Environment.run_bind_of_eq hrun]
  rfl

end Blocklist.Override
