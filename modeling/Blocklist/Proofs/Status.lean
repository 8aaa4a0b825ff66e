import Blocklist.Proofs.Calm

set_option autoImplicit false

/-! # The remembered status

Every operation that changes the state makes the manager forget the status, and so does every
operation that changes the rulesets, but for one: a switch that moves the ruleset and then fails on
the store. So a status from memory tells the state as it is, but the rulesets as they were when it
was read (`told_iff`). -/

namespace Blocklist.Override

/-! ## Outcomes -/

/-- What comes of an operation. -/
inductive Outcome where
  | toggled (result : Except OverrideError Transition)
  | switched (result : Except OverrideError Unit)
  | restored (result : Except OverrideError RestoreReport)
  | told (result : Except OverrideError Status)

/-- The status that is told, if one is. -/
def Outcome.status? : Outcome → Option Status
  | .told (.ok s) => some s
  | _ => none

/-- The operation as a program that ends with its outcome and with the manager after it. -/
def Operation.carryOut (manager : Manager) : Operation → Run (Outcome × Manager)
  | toggle input blocked => do
    let (result, manager) ← manager.setDomainBlocking input blocked
    return (.toggled result, manager)
  | toggleWithin input blocked milliseconds => do
    let (result, manager) ← manager.setDomainBlockingWithin input blocked milliseconds
    return (.toggled result, manager)
  | setGlobal enabled => do
    let (result, manager) ← manager.setGlobalEnabled enabled
    return (.switched result, manager)
  | restore => do
    let (result, manager) ← manager.restore
    return (.restored result, manager)
  | status => do
    let (result, manager) ← manager.status
    return (.told result, manager)

/-- Whether an operation makes the manager forget the status: every toggle of a domain does, and a
switch or a restoration that succeeds. -/
def Operation.forgets : Operation → Outcome → Bool
  | toggle input _, _ | toggleWithin input _ _, _ => (Manager.domainOf input).isOk
  | setGlobal _, .switched (.ok ()) | restore, .restored (.ok _) => true
  | _, _ => false

/-- A step of a run, what came of it, and the environments before and after it. -/
structure Occurrence where
  step : Step
  outcome : Outcome
  before : Environment
  after : Environment

/-- Carries out a step; there is no outcome if it hangs. -/
def Step.occur (step : Step) (manager : Manager) (env : Environment) :
    Option (Outcome × Manager) × Environment :=
  (env.at step.time step.schedule).run (step.operation.carryOut manager)

/-- What occurs in a run, as far as it comes. -/
def occurrences : List Step → Manager → Environment → List Occurrence
  | [], _, _ => []
  | step :: rest, manager, env =>
    match step.occur manager env with
    | (some (outcome, manager), after) =>
      ⟨step, outcome, env, after⟩ :: occurrences rest manager after
    | (none, _) => []

namespace Occurrence

/-- The rulesets that are on afterwards. -/
def rulesets (x : Occurrence) : List String :=
  x.after.engine.enabledRulesets

/-- A switch that has moved a ruleset and then failed on the store. -/
def Unpersisted (x : Occurrence) : Prop :=
  (∃ e, x.outcome = .switched (.error (.ofStore e)))
    ∧ x.before.engine.enabledRulesets ≠ x.rulesets

end Occurrence

/-! ## Memory -/

/-- The status that was read last, and what has occurred since then. -/
structure Memory where
  reading : Occurrence
  since : List Occurrence

/-- One more occurrence. -/
def Memory.extend (m : Memory) (x : Occurrence) : Memory :=
  { m with since := m.since ++ [x] }

/-- What is remembered, if it still counts. -/
def fresh? (ttl : Nat) (memory : Option Memory) (time : UInt64) : Option Memory :=
  memory.filter fun m => time.toNat < m.reading.step.time.toNat + ttl

/-- What is remembered after an occurrence: a status that was read anew, nothing, or the same. -/
def remember (ttl : Nat) (memory : Option Memory) (x : Occurrence) : Option Memory :=
  match x.outcome.status? with
  | some _ => some ((fresh? ttl memory x.step.time).elim ⟨x, []⟩ (·.extend x))
  | none =>
    if x.step.operation.forgets x.outcome then none else memory.map (·.extend x)

/-- A status is told from memory, and the rulesets are no longer as they were when it was read. -/
def Outdated (ttl : Nat) (memory : Option Memory) (x : Occurrence) : Prop :=
  ∃ m, fresh? ttl memory x.step.time = some m ∧ m.reading.rulesets ≠ x.rulesets

/-- The manager remembers the status as it was read, and the state is still as it was then. The
rulesets may have changed, if a switch was not persisted. -/
structure Remembers (ttl : Nat) (memory : Option Memory) (manager : Manager) (engine : Engine)
    (state : PersistedState) : Prop where
  sameTtl : manager.statusCache.ttl = ttl
  slot : manager.statusCache.slot = memory.map fun m =>
    (statusOf m.reading.after.engine state, m.reading.step.time.toNat + ttl)
  unpersisted : ∀ m, memory = some m → m.reading.rulesets ≠ engine.enabledRulesets →
    ∃ y ∈ m.since, y.Unpersisted

/-- What a told status says, given what was remembered before. -/
structure Tells (ttl : Nat) (memory : Option Memory) (x : Occurrence) (state : PersistedState)
    (s : Status) : Prop where
  enabled : s.enabled = state.enabled
  exemptedDomains : s.exemptedDomains = state.exemptedDomains
  lastUpdate : s.lastUpdate = state.lastUpdate
  enabledRulesets : s.enabledRulesets = x.rulesets ↔ ¬ Outdated ttl memory x
  unpersisted : ∀ m, memory = some m → m.reading.rulesets ≠ x.rulesets →
    ∃ y ∈ m.since, y.Unpersisted

section

variable {ttl : Nat} {memory : Option Memory} {manager : Manager} {engine engine' : Engine}
  {state : PersistedState} {x : Occurrence}

namespace Remembers

theorem get?_eq (h : Remembers ttl memory manager engine state) (time : UInt64) :
    manager.statusCache.get? time.toNat
      = (fresh? ttl memory time).map fun m => statusOf m.reading.after.engine state := by
  rw [Cache.get?, h.slot, fresh?]
  cases memory with
  | none => rfl
  | some m =>
    simp only [Option.map_some, Option.filter_some, decide_eq_true_eq]
    split
    · rfl
    · rfl

/-- A manager that remembers nothing. -/
theorem of_slot_eq_none (httl : manager.statusCache.ttl = ttl)
    (hslot : manager.statusCache.slot = none) : Remembers ttl none manager engine state where
  sameTtl := httl
  slot := hslot
  unpersisted := by
    intro m hm
    cases hm

/-- A manager that has forgotten the status. -/
theorem forget (h : Remembers ttl memory manager engine state) (engine' : Engine)
    (state' : PersistedState) : Remembers ttl none manager.forget engine' state' :=
  .of_slot_eq_none h.sameTtl rfl

/-- An occurrence at which the manager keeps what it remembers. -/
theorem extend (h : Remembers ttl memory manager engine state)
    (hkept : engine'.enabledRulesets = engine.enabledRulesets ∨ x.Unpersisted) :
    Remembers ttl (memory.map (·.extend x)) manager engine' state := by
  refine ⟨h.sameTtl, ?_, ?_⟩
  · rw [h.slot, Option.map_map]
    rfl
  · intro m' hm' hchanged
    obtain ⟨m, hm, rfl⟩ := Option.map_eq_some_iff.1 hm'
    rcases hkept with hsame | hunpersisted
    · rw [hsame] at hchanged
      obtain ⟨y, hy, hunpersisted⟩ := h.unpersisted m hm hchanged
      exact ⟨y, List.mem_append_left _ hy, hunpersisted⟩
    · exact ⟨x, List.mem_append_right _ (List.mem_singleton_self x), hunpersisted⟩

end Remembers

end

/-! ## Rules -/

section

variable {regime : Regime} {halted : World → Prop} {w : World} {config : Config}

/-- A toggle ends, under either scheme, or hangs. -/
theorem guarantees_toggle_ends (hquiet : regime.Quiet) {domain : String} {blocked : Bool}
    (hhalted : ∀ after, regime.hangs → halted after) :
    Guarantees regime halted (toggle config domain blocked).run w fun _ _ => True := by
  rw [toggle]
  cases blocked with
  | true =>
    exact guarantees_unexempt_blockedIds hquiet (fun _ _ _ => trivial) fun after hhangs _ =>
      hhalted after hhangs
  | false =>
    exact guarantees_exempt_prepare hquiet (fun _ _ _ _ _ _ _ => trivial) (fun _ _ _ _ => trivial)
      (fun _ _ _ _ => trivial) (fun _ _ _ after hhangs _ _ => hhalted after hhangs)
      fun after hhangs _ => hhalted after hhangs

/-- The restoration of a domain ends, under either scheme. -/
theorem guarantees_restoreNext_ends (hquiet : regime.Quiet) (hanswered : ¬ regime.hangs)
    (report : RestoreReport) (domain : String) :
    Guarantees regime halted (restoreNext config report domain) w fun _ _ => True := by
  have hdomain : Guarantees regime halted (restoreDomain config domain).run w fun _ _ => True := by
    unfold restoreDomain
    rw [guarantees_attempt_bind]
    refine guarantees_loadState hquiet (fun read _ => ?_) (fun _ _ _ _ _ => trivial)
      fun _ hhangs => absurd hhangs hanswered
    simp only
    split
    · trivial
    · rw [guarantees_attempt_bind]
      refine guarantees_idsForInstall_prepare hquiet (fun ids stale _ granted _ _ => ?_)
        (fun _ _ _ _ => trivial) (fun _ _ _ _ => trivial) fun _ hhangs => absurd hhangs hanswered
      simp only
      rw [guarantees_attempt_bind, guarantees_attempt_lift]
      exact guarantees_installPair (fun _ _ _ _ _ => trivial) (fun _ _ _ _ _ => trivial)
        (fun _ _ _ _ _ => trivial) fun _ hhangs => absurd hhangs hanswered
  rw [restoreNext, guarantees_bind]
  refine hdomain.imp fun result after _ => ?_
  cases result with
  | ok installed =>
    cases installed with
    | true => trivial
    | false => trivial
  | error e =>
    simp only
    rw [guarantees_bind]
    exact guarantees_warn fun _ _ => trivial

/-- A restoration that fails as a whole has changed nothing. -/
theorem guarantees_restoreAll_error (hquiet : regime.Quiet) (hanswered : ¬ regime.hangs) :
    Guarantees regime halted (restoreAll config).run w fun result after =>
      ∀ e, result = .error e → w.Stays after := by
  unfold restoreAll
  rw [guarantees_attempt_bind]
  refine guarantees_loadState hquiet (fun read hread => ?_) (fun _ _ _ hafter _ _ _ => hafter)
    fun _ hhangs => absurd hhangs hanswered
  simp only
  rw [guarantees_attempt_bind]
  refine guarantees_reconcileRuleset hanswered fun result after hout => ?_
  cases result with
  | error e =>
    cases hout with
    | failed _ _ hafter => exact fun _ _ => hread.then_stays hafter
  | ok reconciled =>
    -- From here on only single domains fail, and the restoration goes on.
    simp only
    rw [guarantees_attempt_bind]
    refine (guarantees_attempt_lift _ _ _).2 (Guarantees.imp (guarantees_foldlM
      (fun _ _ _ => True) (fun domain _ report _ _ =>
        guarantees_restoreNext_ends hquiet hanswered report domain) _ _ _ trivial) ?_)
    intro report between _
    exact (guarantees_attempt_lift _ _ _).2 (Guarantees.imp (guarantees_foldlM
      (fun _ _ _ => True) (fun _ _ _ _ _ =>
        guarantees_clearNext hquiet hanswered fun _ _ _ => trivial) _ _ _ trivial)
      fun _ _ _ => nofun)

end

/-! ## Runs -/

namespace Environment

/-- No call takes time. -/
theorem time_answer (c : Call) (env : Environment) : (answer c env).2.time = env.time := by
  have hengine : ∀ {α : Type} (kind : CallKind) (event : Event)
      (act : Engine → Except EngineError α × Engine),
      (onEngine kind event act env).2.time = env.time := by
    intro α kind event act
    unfold onEngine
    generalize env.schedule.next kind = next
    obtain ⟨fault, schedule⟩ := next
    cases fault with
    | none | outside | unavailable | rejected | hang => rfl
  have hstore : ∀ {α : Type} (kind : CallKind) (act : Store → Except StoreError α × Store),
      (onStore kind act env).2.time = env.time := by
    intro α kind act
    unfold onStore
    generalize env.schedule.next kind = next
    obtain ⟨fault, schedule⟩ := next
    cases fault with
    | none | outside | unavailable | rejected | hang => rfl
  cases c with
  | enableRuleset | disableRuleset | addRules | removeRules | enabledRulesets => exact hengine ..
  | load | commit => exact hstore ..
  | clock | warn => rfl

theorem time_run {α : Type} (p : Run α) (env : Environment) : (env.run p).2.time = env.time := by
  induction p generalizing env with
  | done a => rfl
  | stuck => rfl
  | call c next ih => exact (ih _ _).trans (time_answer c env)

theorem run_clock (env : Environment) : env.run clock = (some env.time, env) := rfl

/-- A status from memory calls on nobody but the clock. -/
theorem run_status_of_get? {manager : Manager} {env : Environment} {s : Status}
    (h : manager.statusCache.get? env.time.toNat = some s) :
    env.run manager.status = (some (.ok s, manager), env) := by
  rw [Manager.status, run_bind_of_eq (run_clock env), h]
  rfl

/-- A status that is not remembered is read, and then it is. -/
theorem run_status_of_readStatus {manager : Manager} {env after : Environment}
    {result : Except OverrideError Status}
    (h : manager.statusCache.get? env.time.toNat = none)
    (hread : env.run Manager.readStatus.run = (some result, after)) :
    env.run manager.status = (some (result, match result with
      | .ok s => { manager with statusCache := manager.statusCache.insert env.time.toNat s }
      | .error _ => manager), after) := by
  have htime : after.time = env.time := by
    rw [← time_run Manager.readStatus.run env, hread]
  rw [Manager.status, run_bind_of_eq (run_clock env), h]
  simp only
  rw [run_bind_of_eq hread]
  cases result with
  | error e => rfl
  | ok s =>
    simp only
    rw [run_bind_of_eq (run_clock after), htime]
    rfl

end Environment

section

-- Otherwise the elaborator tries to compute the name of an unknown input.
attribute [local irreducible] Manager.domainOf

/-- What an operation that tells no status leaves behind. -/
inductive Aftermath (operation : Operation) (manager : Manager) (w : World) :
    Outcome → Manager → World → Prop where
  | forgotten {outcome : Outcome} {after : World} : outcome.status? = none →
      operation.forgets outcome = true →
      Aftermath operation manager w outcome manager.forget after
  | kept {outcome : Outcome} {after : World} : outcome.status? = none →
      operation.forgets outcome = false → w.Stays after →
      Aftermath operation manager w outcome manager after
  /-- Only a switch that fails on the store leaves something changed that is not forgotten. -/
  | unpersisted (e : StoreError) {after : World} :
      operation.forgets (.switched (.error (.ofStore e))) = false → after.state = w.state →
      Aftermath operation manager w (.switched (.error (.ofStore e))) manager after

theorem guarantees_carryOut {w : World} (manager : Manager) {operation : Operation}
    (hoperation : operation ≠ .status) :
    Guarantees (.rough (operation.isTimed = true)) (fun _ => False) (operation.carryOut manager) w
      fun outcome after => Aftermath operation manager w outcome.1 outcome.2 after := by
  have hquiet := Regime.quiet_rough (operation.isTimed = true)
  cases operation with
  | toggle input blocked =>
    rw [Operation.carryOut, guarantees_bind]
    cases hdomain : Manager.domainOf input with
    | error e =>
      rw [setDomainBlocking_of_error hdomain]
      exact .kept rfl (by rw [Operation.forgets, hdomain]; rfl) (.refl w)
    | ok domain =>
      rw [guarantees_setDomainBlocking hdomain]
      refine (guarantees_toggle_ends hquiet fun _ hhangs => nomatch hhangs).imp
        fun result after _ => ?_
      exact .forgotten rfl (by rw [Operation.forgets, hdomain]; rfl)
  | toggleWithin input blocked milliseconds =>
    rw [Operation.carryOut, guarantees_bind]
    cases hdomain : Manager.domainOf input with
    | error e =>
      refine guarantees_setDomainBlockingWithin_of_error hdomain ?_
      exact .kept rfl (by rw [Operation.forgets, hdomain]; rfl) (.refl w)
    | ok domain =>
      have hforgets : ∀ result,
          (Operation.toggleWithin input blocked milliseconds).forgets (.toggled result) = true := by
        intro result
        rw [Operation.forgets, hdomain]
        rfl
      refine guarantees_setDomainBlockingWithin hdomain ?_
      exact (guarantees_toggle_ends hquiet fun _ _ _ _ => .forgotten rfl (hforgets _)).imp
        fun result after _ => .forgotten rfl (hforgets result)
  | setGlobal enabled =>
    rw [Operation.carryOut, guarantees_bind]
    refine guarantees_setGlobalEnabled hquiet nofun fun result after hout => ?_
    cases hout with
    | refused _ _ hafter => exact .kept rfl rfl hafter
    | unpersisted e _ hafter => exact .unpersisted e rfl hafter.state
    | done => exact .forgotten rfl rfl
  | restore =>
    rw [Operation.carryOut, guarantees_bind]
    refine guarantees_restore (Guarantees.imp (guarantees_restoreAll_error hquiet nofun) ?_)
    intro result after hafter
    cases result with
    | ok report => exact .forgotten rfl rfl
    | error e => exact .kept rfl rfl (hafter e rfl)
  | status => exact absurd rfl hoperation

theorem Remembers.aftermath {ttl : Nat} {memory : Option Memory} {manager manager' : Manager}
    {w after : World} {x : Occurrence} (h : Remembers ttl memory manager w.engine w.state)
    (hout : Aftermath x.step.operation manager w x.outcome manager' after)
    (hbefore : x.before.engine = w.engine) (hafter : x.after.engine = after.engine) :
    Remembers ttl (remember ttl memory x) manager' after.engine after.state := by
  obtain ⟨step, outcome, before, last⟩ := x
  cases hout with
  | forgotten hstatus hforgets =>
    simp only [remember, hstatus, hforgets, if_true]
    exact h.forget _ _
  | kept hstatus hforgets hstays =>
    simp only [remember, hstatus, hforgets, Bool.false_eq_true, if_false]
    rw [hstays.state]
    exact h.extend (Or.inl (by rw [hstays.engine]))
  | unpersisted e hforgets hstate =>
    simp only [remember, Outcome.status?, hforgets, Bool.false_eq_true, if_false]
    rw [hstate]
    refine h.extend ?_
    by_cases hsame : after.engine.enabledRulesets = w.engine.enabledRulesets
    · exact Or.inl hsame
    · refine Or.inr ⟨⟨e, rfl⟩, fun heq => hsame ?_⟩
      rw [Occurrence.rulesets] at heq
      rw [← hafter, ← heq, hbefore]

theorem Aftermath.status?_eq_none {operation : Operation} {manager manager' : Manager}
    {w after : World} {outcome : Outcome}
    (h : Aftermath operation manager w outcome manager' after) :
    outcome.status? = none := by
  cases h with
  | forgotten hstatus _ => exact hstatus
  | kept hstatus _ _ => exact hstatus
  | unpersisted e _ _ => rfl

end

section

variable {view : Store.View} {ttl : Nat} {memory : Option Memory} {manager : Manager}
  {env : Environment} {v : Versioned}

/-- A step occurs: the manager then remembers what it should, and a status says what it should. -/
def Occurs (view : Store.View) (ttl : Nat) (memory : Option Memory) (step : Step)
    (manager : Manager) (env : Environment) : Prop :=
  ∃ outcome manager' after v', step.occur manager env = (some (outcome, manager'), after)
    ∧ view.Holds after.store v'
    ∧ Remembers ttl (remember ttl memory ⟨step, outcome, env, after⟩) manager' after.engine v'.state
    ∧ ∀ s, outcome = .told (.ok s) → Tells ttl memory ⟨step, outcome, env, after⟩ v'.state s

namespace Remembers

/-- A status from memory tells the state as it is and the rulesets as they were. -/
theorem occurs_status_of_fresh (h : Remembers ttl memory manager env.engine v.state)
    (hholds : view.Holds env.store v) {time : UInt64} {schedule : Schedule} {m : Memory}
    (hfresh : fresh? ttl memory time = some m) :
    Occurs view ttl memory ⟨.status, time, schedule⟩ manager env := by
  have hmemory : memory = some m := Option.eq_some_of_filter_eq_some hfresh
  have hget : manager.statusCache.get? time.toNat
      = some (statusOf m.reading.after.engine v.state) := by
    rw [h.get?_eq, hfresh]
    rfl
  have hrun : (env.at time schedule).run (Operation.status.carryOut manager)
      = (some (.told (.ok (statusOf m.reading.after.engine v.state)), manager),
          env.at time schedule) :=
    Environment.run_bind_of_eq (Environment.run_status_of_get? hget) _
  refine ⟨_, manager, _, v, hrun, hholds, ?_, ?_⟩
  · have hremember := h.extend (x := ⟨⟨.status, time, schedule⟩,
      .told (.ok (statusOf m.reading.after.engine v.state)), env, env.at time schedule⟩)
      (Or.inl (Eq.refl env.engine.enabledRulesets))
    rw [hmemory] at hremember
    simp only [remember, Outcome.status?, hfresh]
    exact hremember
  · rintro s ⟨⟩
    refine ⟨rfl, rfl, rfl, ?_, h.unpersisted⟩
    rw [Outdated, hfresh]
    simp only [Option.some.injEq, exists_eq_left', ne_eq, Decidable.not_not]
    exact Iff.rfl

/-- A status that is read tells engine and state as they are. -/
theorem occurs_status_of_read (h : Remembers ttl memory manager env.engine v.state)
    (hholds : view.Holds env.store v) {time : UInt64} {schedule : Schedule}
    (hadmits : (Regime.rough False).Admits schedule) (hfresh : fresh? ttl memory time = none) :
    Occurs view ttl memory ⟨.status, time, schedule⟩ manager env := by
  have hget : manager.statusCache.get? time.toNat = none := by
    rw [h.get?_eq, hfresh]
    rfl
  have hguarantees : Guarantees (.rough False) (fun _ => False) Manager.readStatus.run
      ⟨env.engine, v, []⟩ fun result after => World.Stays ⟨env.engine, v, []⟩ after
        ∧ ∀ s, result = .ok s → s = statusOf env.engine v.state := by
    refine guarantees_readStatus (Regime.quiet_rough False) id ?_ ?_
    · rintro after hafter
      refine ⟨hafter, ?_⟩
      rintro _ ⟨⟩
      rfl
    · intro e after _ hafter
      exact ⟨hafter, nofun⟩
  obtain ⟨result, after, v', hread, hheld, hstays, hresult⟩ :=
    hguarantees.exists_run (env.at time schedule) hholds hadmits
  have hengine : after.engine = env.engine := hstays.engine
  have hstate : v'.state = v.state := hstays.state
  have hrun := Environment.run_bind_of_eq (Environment.run_status_of_readStatus hget hread)
    fun (result, manager) => pure (Outcome.told result, manager)
  refine ⟨.told result, _, after, v', hrun, hheld, ?_⟩
  cases result with
  | error e =>
    exact ⟨h.aftermath (x := ⟨⟨.status, time, schedule⟩, .told (.error e), env, after⟩)
      (.kept rfl rfl hstays) rfl rfl, nofun⟩
  | ok s =>
    obtain rfl := hresult s rfl
    refine ⟨⟨h.sameTtl, ?_, ?_⟩, ?_⟩
    · simp only [remember, Outcome.status?, hfresh, Option.elim_none, Option.map_some, hengine,
        hstate]
      rw [Cache.insert, h.sameTtl]
      rfl
    · rintro m ⟨⟩ hchanged
      simp only [hfresh] at hchanged
      exact absurd rfl hchanged
    · rintro s ⟨⟩
      rw [hstate]
      refine ⟨rfl, rfl, rfl, ?_, fun m hm hchanged => h.unpersisted m hm ?_⟩
      · rw [Occurrence.rulesets, hengine, Outdated, hfresh]
        simp [statusOf]
      · rw [← hengine]
        exact hchanged

/-- Whatever a step is, it occurs. -/
theorem occurs (h : Remembers ttl memory manager env.engine v.state)
    (hholds : view.Holds env.store v) (step : Step)
    (hadmits : (Regime.rough (step.operation.isTimed = true)).Admits step.schedule) :
    Occurs view ttl memory step manager env := by
  by_cases hstatus : step.operation = .status
  · obtain ⟨operation, time, schedule⟩ := step
    cases hstatus
    cases hfresh : fresh? ttl memory time with
    | some m => exact h.occurs_status_of_fresh hholds hfresh
    | none =>
      have hread : (Regime.rough False).Admits schedule := by
        simpa [Operation.isTimed] using hadmits
      exact h.occurs_status_of_read hholds hread hfresh
  · obtain ⟨⟨outcome, manager'⟩, after, v', hrun, hheld, hout⟩ :=
      (guarantees_carryOut (w := ⟨env.engine, v, []⟩) manager hstatus).exists_run
        (env.at step.time step.schedule) hholds hadmits
    refine ⟨outcome, manager', after, v', hrun, hheld,
      h.aftermath (x := ⟨step, outcome, env, after⟩) hout rfl rfl, ?_⟩
    rintro s rfl
    cases hout.status?_eq_none

/-- Each step of a run occurs, and each status says what it should. -/
theorem occurrences (h : Remembers ttl memory manager env.engine v.state)
    (hholds : view.Holds env.store v) (steps : List Step)
    (hadmits : ∀ step ∈ steps,
      (Regime.rough (step.operation.isTimed = true)).Admits step.schedule) :
    (occurrences steps manager env).map Occurrence.step = steps
      ∧ ∀ past x rest, occurrences steps manager env = past ++ x :: rest →
          ∀ s, x.outcome = .told (.ok s) → ∃ state, x.after.persisted? = some state
            ∧ Tells ttl (past.foldl (remember ttl) memory) x state s := by
  induction steps generalizing memory manager env v with
  | nil =>
    refine ⟨rfl, fun past x rest heq => ?_⟩
    cases past with
    | nil => cases heq
    | cons => cases heq
  | cons step later ih =>
    rw [List.forall_mem_cons] at hadmits
    obtain ⟨outcome, manager', after, v', hoccur, hheld, hremembers, htells⟩ :=
      h.occurs hholds step hadmits.1
    obtain ⟨hsteps, hlater⟩ := ih hremembers hheld hadmits.2
    rw [Override.occurrences, hoccur]
    refine ⟨congrArg (step :: ·) hsteps, fun past x rest heq s hs => ?_⟩
    cases past with
    | nil =>
      obtain ⟨rfl, -⟩ := List.cons.inj heq
      exact ⟨v'.state, persisted?_of_holds hheld, htells s hs⟩
    | cons y past =>
      obtain ⟨rfl, htail⟩ := List.cons.inj heq
      exact hlater past x rest htail s hs

end Remembers

end

/-- What a manager remembers that remembered nothing at the start. -/
def remembered (ttl : Nat) (past : List Occurrence) : Option Memory :=
  past.foldl (remember ttl) none

/-- A new manager carries out operations one after another. However many of their calls fail
without effect, each of them ends. Whenever a status is told, its switch, its exemptions and its
time are those of the state. Its rulesets are those that are on unless it is told from memory and
they are no longer as they were when it was read; in that case a switch since then has failed to be
persisted. -/
theorem told_iff {view : Store.View} {config : Config} {manager : Manager} {env : Environment}
    {v : Versioned} (steps : List Step) (hnew : Manager.new config = .ok manager)
    (hholds : view.Holds env.store v)
    (hadmits : ∀ step ∈ steps,
      (Regime.rough (step.operation.isTimed = true)).Admits step.schedule) :
    (occurrences steps manager env).map Occurrence.step = steps
      ∧ ∀ past x rest, occurrences steps manager env = past ++ x :: rest →
          ∀ s, x.outcome = .told (.ok s) → ∃ state, x.after.persisted? = some state
            ∧ Tells config.statusTtl.toNat (remembered config.statusTtl.toNat past) x state s := by
  cases hfault : config.fault? with
  | some e =>
    rw [Manager.new, hfault] at hnew
    cases hnew
  | none =>
    obtain rfl := Except.ok.inj ((Manager.new_eq_ok hfault).symm.trans hnew)
    have hstart : Remembers config.statusTtl.toNat none ⟨config, .new config.statusTtl.toNat⟩
        env.engine v.state := .of_slot_eq_none rfl rfl
    exact hstart.occurrences hholds steps hadmits

/-- The standard settings, but a status counts for an hour. -/
def hourConfig : Config :=
  { Config.standard with statusTtl := 3600000 }

/-- A status is read, the switch is turned off but not persisted, and a status is told. -/
def unpersistedSteps : List Step :=
  [⟨.status, 0, .faultless⟩,
    ⟨.setGlobal false, 1, Schedule.faultless.set .commit [.unavailable]⟩,
    ⟨.status, 2, .faultless⟩]

theorem admits_unpersistedSteps : ∀ step ∈ unpersistedSteps,
    (Regime.rough (step.operation.isTimed = true)).Admits step.schedule := by
  have hstart : (Regime.rough False).Admits .faultless := Regime.admits_faultless _
  have hadmits : (Regime.rough False).Admits (Schedule.faultless.set .commit [.unavailable]) :=
    hstart.set .commit (by simp [Regime.Allows, Regime.rough])
  simpa [unpersistedSteps, Operation.isTimed] using And.intro hstart (And.intro hadmits hstart)

theorem told_iff_unpersistedSteps :
    Manager.new hourConfig = .ok ⟨hourConfig, .new 3600000⟩
      ∧ (occurrences unpersistedSteps ⟨hourConfig, .new 3600000⟩ freshEnvironment).map
          Occurrence.step = unpersistedSteps
      ∧ ∀ past x rest, occurrences unpersistedSteps ⟨hourConfig, .new 3600000⟩ freshEnvironment
            = past ++ x :: rest →
          ∀ s, x.outcome = .told (.ok s) → ∃ state, x.after.persisted? = some state
            ∧ Tells 3600000 (remembered 3600000 past) x state s := by
  have hnew : Manager.new hourConfig = .ok ⟨hourConfig, .new 3600000⟩ :=
    Manager.new_eq_ok (by decide +kernel)
  have hholds : Store.View.memory.Holds freshEnvironment.store .unwritten := rfl
  exact ⟨hnew, told_iff unpersistedSteps hnew hholds admits_unpersistedSteps⟩

/-- The last status tells that the ruleset is on, although it is off. -/
theorem told_on_while_off :
    (occurrences unpersistedSteps ⟨hourConfig, .new 3600000⟩ freshEnvironment).map
        (fun x => (x.outcome.status?.map (·.enabledRulesets), x.rulesets))
      = [(some ["ruleset_1"], ["ruleset_1"]), (none, []), (some ["ruleset_1"], [])] := by
  decide +kernel

end Blocklist.Override
