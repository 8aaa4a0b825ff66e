import Mathlib
import Blocklist.Proofs.Allocation
import Blocklist.Proofs.Mirror
import Blocklist.Proofs.Separation

set_option autoImplicit false

/-! # What a restoration reports

A restoration of domains that all have their pairs only moves rules at those pairs, one pair at a
time, and the report says of each pair what became of it (`Accounting`), whichever calls fail. Its
lists grow along the domains that were gone through (`Lists`). At the end both together say which
rules are live, which are gone and which are as they were (`restore_tells`). -/

namespace Blocklist.Override

/-! ## What a report says -/

/-- The rules at a pair are as they were. -/
def Unchanged (before after : Engine) (ids : IdPair) : Prop :=
  ∀ id ∈ ids.toList, after.rule? id = before.rule? id

/-- No rule stands at a pair. -/
def Vacant (engine : Engine) (ids : IdPair) : Prop :=
  ∀ id ∈ ids.toList, engine.rule? id = none

/-- An id that belongs to no pair of a table. -/
def Foreign (table : IdTable) (id : UInt32) : Prop :=
  ∀ domain ids, table.get? domain = some ids → id ∉ ids.toList

namespace RestoreReport

/-- The domains whose rules could not be installed. -/
def unrestored (report : RestoreReport) : List String :=
  report.failed.map Prod.fst

/-- A domain that no list of the report has. -/
structure Omits (report : RestoreReport) (domain : String) : Prop where
  restored : domain ∉ report.restored
  unrestored : domain ∉ report.unrestored
  removed : domain ∉ report.removed

/-- What the report says of a domain is true of its pair. -/
structure Accounts (report : RestoreReport) (config : Config) (before after : Engine)
    (domain : String) (ids : IdPair) : Prop where
  restored : domain ∈ report.restored →
    ∀ rule ∈ pairRules config domain ids, after.rule? rule.id = some rule
  unrestored : domain ∈ report.unrestored → Unchanged before after ids ∨ Vacant after ids
  removed : domain ∈ report.removed → Vacant after ids
  omitted : report.Omits domain → Unchanged before after ids

/-- Two reports say the same of a domain. -/
structure Agrees (report other : RestoreReport) (domain : String) : Prop where
  restored : domain ∈ other.restored ↔ domain ∈ report.restored
  unrestored : domain ∈ other.unrestored ↔ domain ∈ report.unrestored
  removed : domain ∈ other.removed ↔ domain ∈ report.removed

end RestoreReport

/-- What a report says is true of every pair of a table, and the other rules are as they were. -/
structure Accounting (config : Config) (table : IdTable) (report : RestoreReport)
    (before after : Engine) : Prop where
  pairs : ∀ {domain ids}, table.get? domain = some ids →
    report.Accounts config before after domain ids
  foreign : ∀ {id}, Foreign table id → after.rule? id = before.rule? id

/-- The lists of a report after `done` was gone through to be restored and `cleared` to be
cleared. -/
structure Lists (done cleared : List String) (report : RestoreReport) : Prop where
  restored : report.restored.Sublist done
  unrestored : report.unrestored.Sublist done
  partition : (report.restored ++ report.unrestored).Perm done
  removed : report.removed.Sublist cleared

section

variable {config : Config} {table : IdTable} {report report' : RestoreReport}
  {before engine engine' : Engine} {domain other : String} {ids : IdPair}
  {done cleared : List String}

/-! ## The lists -/

@[simp]
theorem RestoreReport.unrestored_failed (report : RestoreReport) (domain : String)
    (e : OverrideError) :
    (report.next domain (.error e)).unrestored = report.unrestored ++ [domain] := by
  simp [RestoreReport.unrestored, RestoreReport.next]

theorem Lists.start (reconciled : Bool) : Lists [] [] ⟨[], [], [], reconciled⟩ :=
  ⟨.slnil, .slnil, .nil, .slnil⟩

theorem Lists.restores (h : Lists done cleared report) (domain : String) :
    Lists (done ++ [domain]) cleared (report.next domain (.ok true)) where
  restored := h.restored.append_right [domain]
  unrestored := h.unrestored.trans (List.sublist_append_left ..)
  partition := by
    have hmove : (report.restored ++ [domain] ++ report.unrestored).Perm
        (report.restored ++ report.unrestored ++ [domain]) := by
      simpa only [List.append_assoc] using List.perm_append_comm.append_left report.restored
    exact hmove.trans (h.partition.append_right [domain])
  removed := h.removed

theorem Lists.fails (h : Lists done cleared report) (domain : String) (e : OverrideError) :
    Lists (done ++ [domain]) cleared (report.next domain (.error e)) where
  restored := h.restored.trans (List.sublist_append_left ..)
  unrestored := by
    rw [RestoreReport.unrestored_failed]
    exact h.unrestored.append_right [domain]
  partition := by
    rw [RestoreReport.unrestored_failed, ← List.append_assoc]
    exact h.partition.append_right [domain]
  removed := h.removed

theorem Lists.clears (h : Lists done cleared report) (domain : String)
    (result : Except OverrideError Bool) :
    Lists done (cleared ++ [domain]) (report.nextStray domain result) where
  restored := h.restored
  unrestored := h.unrestored
  partition := h.partition
  removed := by
    match result with
    | .ok true => exact h.removed.append_right [domain]
    | .ok false => exact h.removed.trans (List.sublist_append_left ..)
    | .error _ => exact h.removed.trans (List.sublist_append_left ..)

/-- A domain that was not gone through is in no list. -/
theorem Lists.omits (h : Lists done cleared report) (hdone : domain ∉ done)
    (hcleared : domain ∉ cleared) : report.Omits domain :=
  ⟨fun hmem => hdone (h.restored.subset hmem), fun hmem => hdone (h.unrestored.subset hmem),
    fun hmem => hcleared (h.removed.subset hmem)⟩

/-! ## One pair -/

theorem RestoreReport.Agrees.omits_iff (h : report.Agrees report' domain) :
    report'.Omits domain ↔ report.Omits domain := by
  constructor
  · intro homits
    exact ⟨homits.restored ∘ h.restored.2, homits.unrestored ∘ h.unrestored.2,
      homits.removed ∘ h.removed.2⟩
  · intro homits
    exact ⟨homits.restored ∘ h.restored.1, homits.unrestored ∘ h.unrestored.1,
      homits.removed ∘ h.removed.1⟩

/-- The restoration of one domain says nothing of the others. -/
theorem RestoreReport.agrees_next (report : RestoreReport) (hne : other ≠ domain)
    (result : Except OverrideError Bool) : report.Agrees (report.next domain result) other := by
  match result with
  | .ok true => exact ⟨by simp [RestoreReport.next, hne], .rfl, .rfl⟩
  | .ok false => exact ⟨.rfl, .rfl, .rfl⟩
  | .error e => exact ⟨.rfl, by simp [hne], .rfl⟩

theorem RestoreReport.agrees_nextStray (report : RestoreReport) (hne : other ≠ domain)
    (result : Except OverrideError Bool) :
    report.Agrees (report.nextStray domain result) other := by
  match result with
  | .ok true => exact ⟨.rfl, .rfl, by simp [RestoreReport.nextStray, hne]⟩
  | .ok false => exact ⟨.rfl, .rfl, .rfl⟩
  | .error e => exact ⟨.rfl, .rfl, .rfl⟩

/-- What is true of a pair stays true while its rules do and the report says the same of it. -/
theorem RestoreReport.Accounts.of_unchanged (h : report.Accounts config before engine domain ids)
    (hagrees : report.Agrees report' domain) (hunchanged : Unchanged engine engine' ids) :
    report'.Accounts config before engine' domain ids where
  restored hmem rule hrule := by
    rw [hunchanged _ (id_mem_of_mem_pairRules hrule)]
    exact h.restored (hagrees.restored.1 hmem) rule hrule
  unrestored hmem := by
    refine (h.unrestored (hagrees.unrestored.1 hmem)).imp ?_ ?_
    · exact fun hsame id hid => (hunchanged id hid).trans (hsame id hid)
    · exact fun hvacant id hid => (hunchanged id hid).trans (hvacant id hid)
  removed hmem id hid := (hunchanged id hid).trans (h.removed (hagrees.removed.1 hmem) id hid)
  omitted homits id hid :=
    (hunchanged id hid).trans (h.omitted (hagrees.omits_iff.1 homits) id hid)

theorem RestoreReport.Omits.accounts_installed (h : report.Omits domain)
    (hinstalled : Installed config domain ids none engine engine') :
    (report.next domain (.ok true)).Accounts config before engine' domain ids where
  restored _ rule hrule :=
    (hinstalled.rule?_of_mem (id_mem_of_mem_pairRules hrule) rule).2 ⟨hrule, rfl⟩
  unrestored hmem := absurd hmem h.unrestored
  removed hmem := absurd hmem h.removed
  omitted homits := absurd (List.mem_append_right _ (List.mem_singleton_self _)) homits.restored

theorem RestoreReport.Omits.accounts_failed (h : report.Omits domain) (e : OverrideError)
    (hrules : Unchanged before engine ids ∨ Vacant engine ids) :
    (report.next domain (.error e)).Accounts config before engine domain ids where
  restored hmem := absurd hmem h.restored
  unrestored _ := hrules
  removed hmem := absurd hmem h.removed
  omitted homits := absurd (by simp) homits.unrestored

theorem RestoreReport.Omits.accounts_removed (h : report.Omits domain)
    (hvacant : Vacant engine ids) :
    (report.nextStray domain (.ok true)).Accounts config before engine domain ids where
  restored hmem := absurd hmem h.restored
  unrestored hmem := absurd hmem h.unrestored
  removed _ := hvacant
  omitted homits := absurd (List.mem_append_right _ (List.mem_singleton_self _)) homits.removed

/-! ## All pairs -/

/-- Nothing is reported of an engine that is as it was. -/
theorem Accounting.start (config : Config) (table : IdTable) (reconciled : Bool)
    (hrules : ∀ id, engine.rule? id = before.rule? id) :
    Accounting config table ⟨[], [], [], reconciled⟩ before engine :=
  ⟨fun _ => ⟨nofun, nofun, nofun, fun _ id _ => hrules id⟩, fun _ => hrules _⟩

/-- A step that moves rules at one pair only, and reports of its domain only, is accounted for once
it is for that pair. -/
theorem Accounting.step (h : Accounting config table report before engine)
    (hw : table.WellFormed) (hids : table.get? domain = some ids)
    (hothers : ∀ id ∉ ids.toList, engine'.rule? id = engine.rule? id)
    (hagrees : ∀ other, other ≠ domain → report.Agrees report' other)
    (hself : report'.Accounts config before engine' domain ids) :
    Accounting config table report' before engine' where
  pairs {other p} hp := by
    by_cases heq : other = domain
    · subst heq
      obtain rfl : p = ids := Option.some.inj (hp.symm.trans hids)
      exact hself
    · -- Pairs of different domains share no id.
      exact (h.pairs hp).of_unchanged (hagrees other heq) fun id hid =>
        hothers id (hw.disjoint hp hids heq id hid)
  foreign hforeign := (hothers _ (hforeign domain ids hids)).trans (h.foreign hforeign)

end

/-! ## A run -/

section

variable {regime : Regime} {config : Config} {s : PersistedState} {before : Engine}
  {report : RestoreReport} {u v w after : World} {domain : String} {ids : IdPair}
  {done left cleared : List String} {result : Except OverrideError Bool}

/-- How the restoration of an exempted domain ends that has its pair: the state stays, and of the
rules only those at the pair can change. -/
theorem RestoreOutcome.of_owns (howns : Owns w.state domain ids)
    (h : RestoreOutcome regime config domain w result after) :
    after.state = w.state
      ∧ ((∃ e, result = .error e
            ∧ (after.engine = w.engine ∨ after.engine = w.engine.removeRules ids.toList))
          ∨ result = .ok true ∧ Installed config domain ids none w.engine after.engine) := by
  cases h with
  | skipped hexempted _ => cases hexempted.symm.trans howns.1
  | refused _ hnew _ _ => cases hnew.symm.trans howns.2
  | failed e _ hafter => exact ⟨hafter.state, .inl ⟨e, rfl, .inl hafter.engine⟩⟩
  | untouched e _ hgranted _ hafter _ =>
    obtain ⟨rfl, rfl, rfl⟩ := hgranted.eq_of_get?_eq_some howns.2
    exact ⟨hafter.state, .inl ⟨e, rfl, .inl hafter.engine⟩⟩
  | cleared e _ hgranted _ hafter =>
    obtain ⟨rfl, rfl, rfl⟩ := hgranted.eq_of_get?_eq_some howns.2
    rw [clearedIds_none] at hafter
    exact ⟨hafter.state, .inl ⟨e, rfl, .inr hafter.engine⟩⟩
  | done _ hgranted hinstalled hafter =>
    obtain ⟨rfl, rfl, rfl⟩ := hgranted.eq_of_get?_eq_some howns.2
    exact ⟨hafter.state, .inr ⟨rfl, by rwa [hafter.engine]⟩⟩

/-- How far a restoration of the state `s` has come that has gone through `done` to restore it and
through `cleared` to clear it. -/
structure Reporting (config : Config) (s : PersistedState) (before : Engine)
    (done cleared : List String) (report : RestoreReport) (u : World) : Prop where
  state : u.state = s
  lists : Lists done cleared report
  rules : Accounting config s.overrideIds report before u.engine

theorem Reporting.start {enabled reconciled : Bool}
    (hout : ReconcileOutcome regime config enabled w (.ok reconciled) after) :
    Reporting config w.state w.engine [] [] ⟨[], [], [], reconciled⟩ after := by
  cases hout with
  | agreed _ hafter =>
    exact ⟨hafter.state, .start _, .start _ _ _ fun id => by rw [hafter.engine]⟩
  | done hafter =>
    exact ⟨hafter.state, .start _, .start _ _ _ fun id => by rw [hafter.engine]; rfl⟩

/-- An exempted domain that has its pair is told as restored or as failed. -/
theorem Reporting.restores (hw : s.overrideIds.WellFormed) (howns : Owns s domain ids)
    (hdone : domain ∉ done) (hcleared : domain ∉ cleared)
    (h : Reporting config s before done cleared report u)
    (hout : RestoreOutcome regime config domain u result v) :
    Reporting config s before (done ++ [domain]) cleared (report.next domain result) v := by
  have homits := h.lists.omits hdone hcleared
  obtain ⟨hstate, ⟨e, rfl, hengine⟩ | ⟨rfl, hinstalled⟩⟩ := hout.of_owns (h.state.symm ▸ howns)
  · refine ⟨hstate.trans h.state, h.lists.fails domain e, h.rules.step hw howns.2 ?_
      (fun other hne => report.agrees_next hne _) (homits.accounts_failed e ?_)⟩
    · intro id hid
      rcases hengine with hengine | hengine
      · rw [hengine]
      · rw [hengine, Engine.rule?_removeRules, if_neg hid]
    · rcases hengine with hengine | hengine
      · rw [hengine]
        exact .inl ((h.rules.pairs howns.2).omitted homits)
      · rw [hengine]
        exact .inr fun id hid => by rw [Engine.rule?_removeRules, if_pos hid]
  · refine ⟨hstate.trans h.state, h.lists.restores domain, h.rules.step hw howns.2 ?_
      (fun other hne => report.agrees_next hne _) (homits.accounts_installed hinstalled)⟩
    exact fun id hid => hinstalled.rule?_of_not_mem (by rwa [clearedIds_none])

/-- A stray domain is told as removed, or its rules are left alone. -/
theorem Reporting.clears (hw : s.overrideIds.WellFormed) (hstray : domain ∈ strayDomains s)
    (hdone : domain ∉ done) (hcleared : domain ∉ cleared)
    (h : Reporting config s before done cleared report u)
    (hout : ClearOutcome regime domain u result v) :
    Reporting config s before done (cleared ++ [domain]) (report.nextStray domain result) v := by
  have homits := h.lists.omits hdone hcleared
  obtain ⟨⟨ids, hids⟩, hexempted⟩ := mem_strayDomains.1 hstray
  cases hout with
  | skipped hskip _ =>
    rw [h.state] at hskip
    rcases hskip with hnone | hstill
    · cases hnone.symm.trans hids
    · cases hstill.symm.trans hexempted
  | failed e _ hafter =>
    exact ⟨hafter.state.trans h.state, h.lists.clears domain _, hafter.engine ▸ h.rules⟩
  | @done p _ hp _ hafter =>
    obtain rfl : p = ids := Option.some.inj (hp.symm.trans (h.state.symm ▸ hids))
    refine ⟨hafter.state.trans h.state, h.lists.clears domain _, h.rules.step hw hids ?_
      (fun other hne => report.agrees_nextStray hne _) (homits.accounts_removed ?_)⟩
    · intro id hid
      rw [hafter.engine, Engine.rule?_removeRules, if_neg hid]
    · intro id hid
      rw [hafter.engine, Engine.rule?_removeRules, if_pos hid]

/-- A list without repetitions does not have again what it was divided at. -/
theorem not_mem_of_nodup_append_cons {l rest : List String} (h : (l ++ domain :: rest).Nodup) :
    domain ∉ l :=
  fun hmem => (List.nodup_append.1 h).2.2 domain hmem domain (List.mem_cons_self ..) rfl

theorem guarantees_restore_reporting {halted : World → Prop} {manager : Manager}
    (htable : manager.config.idScheme = .table) (hquiet : regime.Quiet)
    (hanswered : ¬ regime.hangs) (hw : w.state.overrideIds.WellFormed)
    (hcovered : Covered w.state) (hnodup : w.state.exemptedDomains.Nodup) :
    Guarantees regime halted manager.restore w fun outcome after =>
      after.state = w.state ∧ ∀ report, outcome.1 = .ok report →
        Reporting manager.config w.state w.engine w.state.exemptedDomains (strayDomains w.state)
          report after := by
  refine guarantees_restore (guarantees_restoreAll htable hquiet hanswered
    (fun left report u => ∃ done, w.state.exemptedDomains = done ++ left
      ∧ Reporting manager.config w.state w.engine done [] report u)
    (fun left report u => ∃ cleared, strayDomains w.state = cleared ++ left
      ∧ Reporting manager.config w.state w.engine w.state.exemptedDomains cleared report u)
    ?_ ?_ ?_ ?_ ?_ ?_)
  · intro e after _ hafter
    exact ⟨hafter.state, nofun⟩
  · intro reconciled after hout
    exact ⟨[], rfl, .start hout⟩
  · rintro domain rest report u result v ⟨done, hsplit, hu⟩ hout
    have hexempted : w.state.isExempted domain = true :=
      List.contains_iff_mem.2 (hsplit ▸ List.mem_append_right _ (List.mem_cons_self ..))
    obtain ⟨ids, hids⟩ := hcovered domain hexempted
    have hdone := not_mem_of_nodup_append_cons (hsplit ▸ hnodup)
    exact ⟨done ++ [domain], by simpa using hsplit,
      hu.restores hw ⟨hexempted, hids⟩ hdone List.not_mem_nil hout⟩
  · rintro report u ⟨done, hsplit, hu⟩
    rw [List.append_nil] at hsplit
    exact ⟨[], rfl, hsplit ▸ hu⟩
  · rintro domain rest report u result v ⟨cleared, hsplit, hu⟩ hout
    have hstray : domain ∈ strayDomains w.state :=
      hsplit ▸ List.mem_append_right _ (List.mem_cons_self ..)
    have hdone := PersistedState.not_mem_of_isExempted_eq_false (mem_strayDomains.1 hstray).2
    have hcleared := not_mem_of_nodup_append_cons (hsplit ▸ nodup_strayDomains w.state)
    exact ⟨cleared ++ [domain], by simpa using hsplit, hu.clears hw hstray hdone hcleared hout⟩
  · rintro report after ⟨cleared, hsplit, hu⟩
    rw [List.append_nil] at hsplit
    refine ⟨hu.state, ?_⟩
    rintro _ ⟨⟩
    exact hsplit ▸ hu

end

/-- What the report of a restoration tells. The exempted domains are divided in their order into
those that are restored and those that have failed. -/
structure RestoreReport.Tells (report : RestoreReport) (config : Config) (state : PersistedState)
    (before after : Engine) : Prop where
  restored : report.restored.Sublist state.exemptedDomains
  unrestored : report.unrestored.Sublist state.exemptedDomains
  partition : (report.restored ++ report.unrestored).Perm state.exemptedDomains
  live : ∀ domain ∈ report.restored, Live config after state domain
  failed : ∀ domain ∈ report.unrestored, ∀ ids, state.overrideIds.get? domain = some ids →
    Unchanged before after ids ∨ Vacant after ids
  ordered : report.removed.Pairwise (· < ·)
  removed : ∀ domain ∈ report.removed, state.isExempted domain = false
    ∧ ∃ ids, state.overrideIds.get? domain = some ids ∧ Vacant after ids
  spared : ∀ domain ids, state.isExempted domain = false →
    state.overrideIds.get? domain = some ids → domain ∉ report.removed →
    Unchanged before after ids
  foreign : ∀ id, Foreign state.overrideIds id → after.rule? id = before.rule? id

theorem Reporting.tells {config : Config} {s : PersistedState} {before : Engine}
    {report : RestoreReport} {u : World} (hcovered : Covered s)
    (h : Reporting config s before s.exemptedDomains (strayDomains s) report u) :
    report.Tells config s before u.engine where
  restored := h.lists.restored
  unrestored := h.lists.unrestored
  partition := h.lists.partition
  live domain hdomain := by
    have hexempted := h.lists.restored.subset hdomain
    obtain ⟨ids, hids⟩ := hcovered domain (List.contains_iff_mem.2 hexempted)
    exact ⟨ids, hids, (h.rules.pairs hids).restored hdomain⟩
  failed domain hdomain ids hids := (h.rules.pairs hids).unrestored hdomain
  ordered := (pairwise_strayDomains s).sublist h.lists.removed
  removed domain hdomain := by
    obtain ⟨⟨ids, hids⟩, hexempted⟩ := mem_strayDomains.1 (h.lists.removed.subset hdomain)
    exact ⟨hexempted, ids, hids, (h.rules.pairs hids).removed hdomain⟩
  spared domain ids hexempted hids hdomain := by
    have hnot := PersistedState.not_mem_of_isExempted_eq_false hexempted
    exact (h.rules.pairs hids).omitted ⟨fun hmem => hnot (h.lists.restored.subset hmem),
      fun hmem => hnot (h.lists.unrestored.subset hmem), hdomain⟩
  foreign id hforeign := h.rules.foreign hforeign

/-- However many calls fail without effect, a restoration of distinct domains that all have their
pairs leaves the state as it was, and if it succeeds, its report tells what became of the rules. -/
theorem restore_tells {view : Store.View} {manager : Manager} {env : Environment} {v : Versioned}
    (htable : manager.config.idScheme = .table) (hholds : view.Holds env.store v)
    (hadmits : (Regime.rough False).Admits env.schedule) (hw : v.state.overrideIds.WellFormed)
    (hcovered : Covered v.state) (hnodup : v.state.exemptedDomains.Nodup) :
    ∃ outcome after v',
      env.run manager.restore = (some outcome, after)
      ∧ view.Holds after.store v'
      ∧ v'.state = v.state
      ∧ ∀ report, outcome.1 = .ok report →
        report.Tells manager.config v.state env.engine after.engine := by
  have hguarantees : Guarantees (.rough False) (fun _ => False) manager.restore
      ⟨env.engine, v, []⟩ _ :=
    guarantees_restore_reporting htable (Regime.quiet_rough False) id hw hcovered hnodup
  obtain ⟨outcome, after, v', hrun, hheld, hstate, hend⟩ :=
    hguarantees.exists_run env hholds hadmits
  exact ⟨outcome, after, v', hrun, hheld, hstate, fun report hreport =>
    (hend report hreport).tells hcovered⟩

/-- Five domains with pairs, three of them exempted and in another order. -/
def crowdedState : PersistedState where
  enabled := false
  lastUpdate := none
  exemptedDomains := ["c.com", "a.com", "b.com"]
  overrideIds :=
    (IdTable.start none).serveAll (["a.com", "b.com", "c.com", "d.com", "e.com"].map .allocate)

/-- Other rules, at an id outside the table and at ids of each domain. -/
def crowdedEngine : Engine :=
  { Engine.withRulesets ["ruleset_1"] with
    sessionRules :=
      .ofList ([7, 16777217, 16777218, 16777220, 16777223, 16777224].map fun id : UInt32 =>
        (id, Rule.allowRequest id 1 "f.com")) }

/-- The rules of `c.com` and of `e.com` cannot be removed, and those of `b.com` cannot be added. -/
def crowded : Environment :=
  ⟨crowdedEngine, .memory ⟨⟨1, crowdedState⟩⟩, 0,
    (Schedule.faultless.set .addRules [.none, .unavailable]).set .removeRules
      [.rejected, .none, .none, .none, .rejected], []⟩

/-- What is reported then. -/
def crowdedReport : RestoreReport where
  restored := ["a.com"]
  failed :=
    [("c.com", .engine (.rejected "injected")), ("b.com", .engine (.unavailable "injected"))]
  removed := ["d.com"]
  rulesetReconciled := true

theorem restore_tells_crowded :
    ∃ outcome after v',
      crowded.run (Manager.restore ⟨.standard, .new 1000⟩) = (some outcome, after)
      ∧ Store.View.memory.Holds after.store v'
      ∧ v'.state = crowdedState
      ∧ outcome.1 = .ok crowdedReport
      ∧ crowdedReport.Tells .standard crowdedState crowdedEngine after.engine := by
  have htable : (Manager.config ⟨.standard, .new 1000⟩).idScheme = .table := rfl
  have hholds : Store.View.memory.Holds crowded.store ⟨1, crowdedState⟩ := rfl
  have hadmits : (Regime.rough False).Admits crowded.schedule :=
    ((Regime.admits_faultless _).set .addRules (by simp [Regime.Allows, Regime.rough])).set
      .removeRules (by simp [Regime.Allows, Regime.rough])
  have hw : crowdedState.overrideIds.WellFormed :=
    ((IdTable.grounded_start none).serveAll _).1.toWellFormed
  have hcovered : Covered crowdedState := by
    intro domain hexempted
    have hall : ∀ domain ∈ crowdedState.exemptedDomains,
        (crowdedState.overrideIds.get? domain).isSome := by decide +kernel
    exact Option.isSome_iff_exists.1 (hall domain (List.contains_iff_mem.1 hexempted))
  obtain ⟨outcome, after, v', hrun, hheld, hstate, hend⟩ :=
    restore_tells htable hholds hadmits hw hcovered (by decide)
  have hreport : (crowded.run (Manager.restore ⟨.standard, .new 1000⟩)).1.bind (·.1.toOption)
      = some crowdedReport := by
    cbv
  rw [hrun] at hreport
  obtain ⟨result, manager'⟩ := outcome
  cases result with
  | ok report =>
    obtain rfl : report = crowdedReport := Option.some.inj hreport
    exact ⟨_, after, v', hrun, hheld, hstate, rfl, hend _ rfl⟩
  | error e => cases hreport

end Blocklist.Override
