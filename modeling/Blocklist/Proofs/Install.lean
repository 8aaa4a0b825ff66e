import Blocklist.Proofs.Calls
import Blocklist.Proofs.IdTable

set_option autoImplicit false

/-! # Granting a pair and installing it

The first half of every exemption. `Granted` says which pair a domain gets from the table and what
becomes of the state; `rule?_install_iff` says which rules an engine holds after a pair was
installed in it. -/

namespace Blocklist

/-! ## Changes of the state -/

namespace PersistedState

theorem not_mem_of_isExempted_eq_false {state : PersistedState} {domain : String}
    (h : state.isExempted domain = false) : domain ∉ state.exemptedDomains := by
  intro hmem
  rw [isExempted, List.contains_iff_mem.2 hmem] at h
  cases h

@[simp]
theorem isExempted_touch (state : PersistedState) (now : UInt64) (domain : String) :
    (state.touch now).isExempted domain = state.isExempted domain := rfl

@[simp]
theorem isExempted_addExemption (state : PersistedState) (domain other : String) :
    (state.addExemption domain).isExempted other = true
      ↔ other = domain ∨ state.isExempted other = true := by
  rw [addExemption]
  split
  · rename_i hexempted
    exact ⟨Or.inr, fun h => h.elim (fun heq => heq ▸ hexempted) id⟩
  · simp [isExempted, or_comm]

@[simp]
theorem isExempted_removeExemption (state : PersistedState) (domain other : String) :
    (state.removeExemption domain).isExempted other = true
      ↔ other ≠ domain ∧ state.isExempted other = true := by
  simp [removeExemption, isExempted, and_comm]

@[simp]
theorem overrideIds_addExemption (state : PersistedState) (domain : String) :
    (state.addExemption domain).overrideIds = state.overrideIds := by
  rw [addExemption]
  split <;> rfl

end PersistedState

namespace Override

/-! ## Granting -/

/-- The pair that the table has for a domain, a new one on first use, and the table after it. -/
def allocation (config : Config) (table : IdTable) (domain : String) :
    Except IdError (IdPair × IdTable) :=
  ((tableFor config table).reserveAbove config.maxStaticRuleId).bind (·.allocate domain)

/-- The hashed ids of a domain that was exempted without a pair. -/
def staleIds (state : PersistedState) (domain : String) : Option IdPair :=
  if state.isExempted domain then some (.hashed domain) else none

/-- Exempted under the hashed scheme: there is no pair in the table yet. -/
def Legacy (state : PersistedState) (domain : String) : Prop :=
  state.isExempted domain = true ∧ state.overrideIds.get? domain = none

theorem get?_tableFor (config : Config) (table : IdTable) (domain : String) :
    (tableFor config table).get? domain = table.get? domain := by
  rw [tableFor]
  split
  · rename_i h
    rw [Bool.and_eq_true] at h
    rw [IdTable.get?_new, IdTable.get?_eq_none_of_isEmpty h.1]
  · rfl

theorem wellFormed_tableFor (config : Config) {table : IdTable} (h : table.WellFormed) :
    (tableFor config table).WellFormed := by
  rw [tableFor]
  split
  · exact IdTable.wellFormed_new config.idBase
  · exact h

theorem exists_of_allocation {config : Config} {table after : IdTable} {domain : String}
    {ids : IdPair} (h : allocation config table domain = .ok (ids, after)) :
    ∃ reserved, (tableFor config table).reserveAbove config.maxStaticRuleId = .ok reserved
      ∧ reserved.allocate domain = .ok (ids, after) := by
  unfold allocation at h
  cases hreserve : (tableFor config table).reserveAbove config.maxStaticRuleId with
  | ok reserved => exact ⟨reserved, rfl, by rwa [hreserve] at h⟩
  | error e =>
    rw [hreserve] at h
    cases h

theorem allocation_eq_ok {config : Config} {table reserved after : IdTable} {domain : String}
    {ids : IdPair}
    (hroom : (tableFor config table).makeRoom config.maxStaticRuleId = (.ok (), reserved))
    (hpair : reserved.handOut domain = (.ok ids, after)) :
    allocation config table domain = .ok (ids, after) := by
  rw [allocation, IdTable.makeRoom_eq_ok_iff.1 hroom]
  exact IdTable.handOut_eq_ok_iff.1 hpair

theorem get?_of_allocation {config : Config} {table after : IdTable} {domain : String}
    {ids : IdPair} (h : allocation config table domain = .ok (ids, after)) (other : String) :
    after.get? other = if domain = other then some ids else table.get? other := by
  obtain ⟨reserved, hreserve, hallocate⟩ := exists_of_allocation h
  rw [IdTable.get?_of_allocate hallocate, IdTable.get?_of_reserveAbove hreserve, get?_tableFor]

theorem wellFormed_of_allocation {config : Config} {table after : IdTable} {domain : String}
    {ids : IdPair} (hw : table.WellFormed) (hnew : table.get? domain = none)
    (h : allocation config table domain = .ok (ids, after)) : after.WellFormed := by
  obtain ⟨reserved, hreserve, hallocate⟩ := exists_of_allocation h
  refine ((wellFormed_tableFor config hw).reserveAbove hreserve).allocate ?_ hallocate
  rw [IdTable.get?_of_reserveAbove hreserve, get?_tableFor, hnew]

/-- The pair and the stale ids of a domain about to be installed, and the state then. -/
inductive Granted (config : Config) (domain : String) (state : PersistedState) :
    IdPair → Option IdPair → PersistedState → Prop where
  | known {ids : IdPair} : state.overrideIds.get? domain = some ids →
      Granted config domain state ids none state
  | fresh {ids : IdPair} {table : IdTable} : state.overrideIds.get? domain = none →
      allocation config state.overrideIds domain = .ok (ids, table) →
      Granted config domain state ids (staleIds state domain) { state with overrideIds := table }

namespace Granted

variable {config : Config} {domain : String} {state after : PersistedState} {ids : IdPair}
  {stale : Option IdPair}

theorem exemptedDomains (h : Granted config domain state ids stale after) :
    after.exemptedDomains = state.exemptedDomains := by
  cases h <;> rfl

theorem isExempted (h : Granted config domain state ids stale after) (other : String) :
    after.isExempted other = state.isExempted other := by
  cases h <;> rfl

/-- The domain has its pair; the other domains have what they had. -/
theorem get? (h : Granted config domain state ids stale after) (other : String) :
    after.overrideIds.get? other
      = if domain = other then some ids else state.overrideIds.get? other := by
  cases h with
  | known hknown =>
    split
    · rename_i heq
      rw [← heq, hknown]
    · rfl
  | fresh _ hallocation => exact get?_of_allocation hallocation other

theorem get?_self (h : Granted config domain state ids stale after) :
    after.overrideIds.get? domain = some ids := by
  rw [h.get?, if_pos rfl]

theorem get?_of_ne (h : Granted config domain state ids stale after) {other : String}
    (hne : other ≠ domain) : after.overrideIds.get? other = state.overrideIds.get? other := by
  rw [h.get?, if_neg hne.symm]

/-- No domain loses its pair. -/
theorem get?_of_eq_some (h : Granted config domain state ids stale after) {other : String}
    {p : IdPair} (hp : state.overrideIds.get? other = some p) :
    after.overrideIds.get? other = some p := by
  cases h with
  | known => exact hp
  | fresh hnew hallocation =>
    -- A fresh pair goes to a domain that had none, which is not this one.
    rw [get?_of_allocation hallocation, if_neg]
    · exact hp
    · rintro rfl
      rw [hnew] at hp
      cases hp

/-- A domain that has a pair gets that one, and nothing changes. -/
theorem eq_of_get?_eq_some (h : Granted config domain state ids stale after) {p : IdPair}
    (hp : state.overrideIds.get? domain = some p) : ids = p ∧ stale = none ∧ after = state := by
  cases h with
  | known hknown => exact ⟨Option.some.inj (hknown.symm.trans hp), rfl, rfl⟩
  | fresh hnew => cases hnew.symm.trans hp

theorem wellFormed (h : Granted config domain state ids stale after)
    (hw : state.overrideIds.WellFormed) : after.overrideIds.WellFormed := by
  cases h with
  | known => exact hw
  | fresh hnew hallocation => exact wellFormed_of_allocation hw hnew hallocation

theorem proper (h : Granted config domain state ids stale after)
    (hw : state.overrideIds.WellFormed) : ids.Proper :=
  (h.wellFormed hw).proper h.get?_self

/-- Only a domain that was exempted without a pair has stale ids. -/
theorem stale_eq_some_iff (h : Granted config domain state ids stale after) (old : IdPair) :
    stale = some old ↔ Legacy state domain ∧ old = .hashed domain := by
  cases h with
  | known hknown => simp [Legacy, hknown]
  | fresh hnew =>
    rw [staleIds, Option.ite_none_right_eq_some, Option.some.injEq, eq_comm (a := IdPair.hashed _)]
    exact and_congr_left' (and_iff_left hnew).symm

end Granted

/-- Under the table scheme a domain gets its pair, or it gets none and nothing changes. -/
theorem guarantees_idsForInstall {regime : Regime} {halted : World → Prop} {w : World}
    {config : Config} {domain : String} (htable : config.idScheme = .table)
    (hquiet : regime.Quiet) {post : Except OverrideError (IdPair × Option IdPair) → World → Prop}
    (hok : ∀ ids stale state after, Granted config domain w.state ids stale state →
      w.Becomes w.engine state after → post (.ok (ids, stale)) after)
    (hrefused : ∀ e after, w.state.overrideIds.get? domain = none →
      allocation config w.state.overrideIds domain = .error e → w.Stays after →
      post (.error (.ids e)) after)
    (herror : ∀ e after, regime.Disturbs → w.Stays after → w.FailsOnStore after →
      post (.error e) after)
    (hhalted : ∀ after, regime.hangs → w.Stays after → halted after) :
    Guarantees regime halted (idsForInstall config domain).run w post := by
  unfold idsForInstall
  rw [htable]
  simp only
  rw [guarantees_attempt_bind]
  refine guarantees_load hquiet (fun read hread => ?_) herror hhalted
  have hstate : read.stored.state = w.state := hread.state
  simp only [hstate]
  cases hknown : w.state.overrideIds.get? domain with
  | some ids =>
    simp only
    exact hok ids none w.state read (.known hknown) hread
  | none =>
    simp only
    have hallocation : allocation config w.state.overrideIds domain
        = ((tableFor config w.state.overrideIds).reserveAbove config.maxStaticRuleId).bind
            (·.allocate domain) := rfl
    rw [guarantees_attempt_bind, guarantees_onTable]
    rcases (tableFor config w.state.overrideIds).makeRoom_cases config.maxStaticRuleId with
      ⟨reserved, hreserve, hroom⟩ | ⟨e, hreserve, hroom⟩
    · rw [hreserve] at hallocation
      simp only [hroom, mapError_ok]
      rw [guarantees_attempt_bind, guarantees_onTable]
      rcases reserved.handOut_cases domain with
        ⟨ids, table, hallocate, hpair⟩ | ⟨e, hallocate, hpair⟩
      · simp only [hpair, mapError_ok]
        rw [guarantees_attempt_bind]
        -- Nothing was asked since the state was read, so its revision is still the current one.
        refine guarantees_commit hquiet rfl ?_ ?_ ?_
        · intro revision last hlast
          refine hok ids _ _ last (.fresh hknown (hallocation.trans hallocate)) ?_
          have hcommitted := hread.trans hlast
          rwa [hread.engine] at hcommitted
        · intro e last hdisturbs hlast hfailed
          exact herror e last hdisturbs (hread.then_stays hlast) (hread.failsOnStore hfailed)
        · intro last hhangs hlast
          exact hhalted last hhangs (hread.then_stays hlast)
      · rw [hpair]
        exact hrefused e read hknown (hallocation.trans hallocate) hread
    · rw [hreserve] at hallocation
      rw [hroom]
      exact hrefused e read hknown hallocation hread

/-- The warnings change nothing. -/
theorem guarantees_warnOfCollisions {regime : Regime} {halted : World → Prop} {w : World}
    {config : Config} {domain : String} {ids : IdPair} (hquiet : regime.Quiet)
    {post : Except OverrideError Unit → World → Prop}
    (hok : ∀ after, w.Stays after → post (.ok ()) after)
    (herror : ∀ e after, regime.Disturbs → w.Stays after → w.FailsOnStore after →
      post (.error e) after)
    (hhalted : ∀ after, regime.hangs → w.Stays after → halted after) :
    Guarantees regime halted (warnOfCollisions config domain ids).run w post := by
  have hloop : ∀ warned, w.Stays warned → Guarantees regime halted (do
      let state ← loadState
      for other in state.exemptedDomains do
        if other != domain && (IdPair.hashed other).overlaps ids then
          warn (.collision domain other) : Attempt Unit).run warned post := by
    intro warned hwarned
    rw [guarantees_attempt_bind]
    refine guarantees_loadState hquiet ?_ ?_ ?_
    · intro read hread
      simp only
      rw [guarantees_attempt_bind]
      refine Guarantees.imp (guarantees_attempt_forIn w.Stays ?_ _ _ (hwarned.then_stays hread)) ?_
      · intro other u hu
        split
        · rw [guarantees_attempt_bind, guarantees_attempt_lift]
          exact guarantees_warn fun after hafter => ⟨rfl, hu.then_stays hafter⟩
        · exact ⟨rfl, hu⟩
      · rintro _ after ⟨rfl, hafter⟩
        exact hok after hafter
    · intro e after hdisturbs hafter hfailed
      exact herror e after hdisturbs (hwarned.then_stays hafter) (hwarned.failsOnStore hfailed)
    · intro after hhangs hafter
      exact hhalted after hhangs (hwarned.then_stays hafter)
  unfold warnOfCollisions
  split
  · rw [guarantees_attempt_bind, guarantees_attempt_lift]
    exact guarantees_warn hloop
  · exact hloop w (.refl w)

/-- Under the hashed scheme a domain always has its ids, and nothing changes. -/
theorem guarantees_idsForInstall_hashed {regime : Regime} {halted : World → Prop} {w : World}
    {config : Config} {domain : String} (hhashed : config.idScheme = .hashed)
    (hquiet : regime.Quiet) {post : Except OverrideError (IdPair × Option IdPair) → World → Prop}
    (hok : ∀ after, w.Stays after → post (.ok (.hashed domain, none)) after)
    (herror : ∀ e after, regime.Disturbs → w.Stays after → w.FailsOnStore after →
      post (.error e) after)
    (hhalted : ∀ after, regime.hangs → w.Stays after → halted after) :
    Guarantees regime halted (idsForInstall config domain).run w post := by
  unfold idsForInstall
  rw [hhashed]
  simp only
  rw [guarantees_attempt_bind]
  exact guarantees_warnOfCollisions hquiet hok herror hhalted

/-! ## Installing -/

theorem mem_pairRules {config : Config} {domain : String} {ids : IdPair} {rule : Rule} :
    rule ∈ pairRules config domain ids
      ↔ rule = .allowInitiator ids.incoming config.overridePriority domain
        ∨ rule = .allowRequest ids.outgoing config.overridePriority domain := by
  simp [pairRules]

theorem id_mem_of_mem_pairRules {config : Config} {domain : String} {ids : IdPair} {rule : Rule}
    (h : rule ∈ pairRules config domain ids) : rule.id ∈ ids.toList := by
  rw [IdPair.mem_toList]
  rcases mem_pairRules.1 h with rfl | rfl
  · exact Or.inl rfl
  · exact Or.inr rfl

theorem exists_mem_pairRules (config : Config) (domain : String) {ids : IdPair} {id : UInt32}
    (h : id ∈ ids.toList) : ∃ rule ∈ pairRules config domain ids, rule.id = id := by
  rcases IdPair.mem_toList.1 h with rfl | rfl
  · exact ⟨_, mem_pairRules.2 (Or.inl rfl), rfl⟩
  · exact ⟨_, mem_pairRules.2 (Or.inr rfl), rfl⟩

/-- The ids that an installation clears. -/
def clearedIds (ids : IdPair) (stale : Option IdPair) : List UInt32 :=
  ids.toList ++ stale.elim [] IdPair.toList

@[simp]
theorem clearedIds_none (ids : IdPair) : clearedIds ids none = ids.toList :=
  List.append_nil _

theorem mem_clearedIds {ids : IdPair} {stale : Option IdPair} {id : UInt32} :
    id ∈ clearedIds ids stale ↔ id ∈ ids.toList ∨ ∃ old, stale = some old ∧ id ∈ old.toList := by
  cases stale <;> simp [clearedIds]

/-- The engine after a pair was installed in it. -/
def Installed (config : Config) (domain : String) (ids : IdPair) (stale : Option IdPair)
    (engine after : Engine) : Prop :=
  (engine.removeRules (clearedIds ids stale)).addRules (pairRules config domain ids) = .ok after

/-- The engine refuses a pair once its ids are cleared. -/
def Refused (config : Config) (domain : String) (ids : IdPair) (stale : Option IdPair)
    (engine : Engine) (e : EngineError) : Prop :=
  (engine.removeRules (clearedIds ids stale)).addRules (pairRules config domain ids) = .error e

theorem Refused.not_installed {config : Config} {domain : String} {ids : IdPair}
    {stale : Option IdPair} {engine : Engine} {e : EngineError}
    (h : Refused config domain ids stale engine e) (after : Engine) :
    ¬ Installed config domain ids stale engine after := by
  intro hinstalled
  cases h.symm.trans hinstalled

/-- The pair stands at its ids, the stale ids are empty, and all other ids are as they were. -/
theorem Installed.rule?_iff {config : Config} {domain : String} {ids : IdPair}
    {stale : Option IdPair} {engine after : Engine}
    (h : Installed config domain ids stale engine after) (id : UInt32) (rule : Rule) :
    after.rule? id = some rule
      ↔ rule ∈ pairRules config domain ids ∧ rule.id = id
        ∨ id ∉ clearedIds ids stale ∧ engine.rule? id = some rule := by
  obtain ⟨⟨-, hnodup⟩, hrule, -⟩ := (Engine.addRules_eq_ok_iff ..).1 h
  have hmissing : (pairRules config domain ids).find? (·.id = id) = none ↔ id ∉ ids.toList := by
    simp only [List.find?_eq_none, decide_eq_true_eq]
    constructor
    · intro hnone hid
      obtain ⟨r, hr, hrid⟩ := exists_mem_pairRules config domain hid
      exact hnone r hr hrid
    · rintro hid r hr rfl
      exact hid (id_mem_of_mem_pairRules hr)
  rw [hrule, Engine.rule?_removeRules, Option.or_eq_some_iff, Engine.find?_id_eq_some_iff hnodup,
    hmissing]
  -- At an id outside the pair only the removal counts, and the ids of the pair are removed too.
  refine or_congr_right ?_
  split
  · rename_i hcleared
    simp [hcleared]
  · rename_i hcleared
    have hid : id ∉ ids.toList := fun hid => hcleared (mem_clearedIds.2 (Or.inl hid))
    simp [hcleared, hid]

theorem Installed.rule?_of_mem {config : Config} {domain : String} {ids : IdPair}
    {stale : Option IdPair} {engine after : Engine}
    (h : Installed config domain ids stale engine after) {id : UInt32} (hid : id ∈ ids.toList)
    (rule : Rule) :
    after.rule? id = some rule ↔ rule ∈ pairRules config domain ids ∧ rule.id = id := by
  rw [h.rule?_iff, or_iff_left]
  rintro ⟨hcleared, -⟩
  exact hcleared (mem_clearedIds.2 (Or.inl hid))

theorem Installed.rule?_of_not_mem {config : Config} {domain : String} {ids : IdPair}
    {stale : Option IdPair} {engine after : Engine}
    (h : Installed config domain ids stale engine after) {id : UInt32}
    (hid : id ∉ clearedIds ids stale) : after.rule? id = engine.rule? id := by
  refine Option.ext fun rule => ?_
  rw [h.rule?_iff, or_iff_right, and_iff_right hid]
  rintro ⟨hrule, rfl⟩
  exact hid (mem_clearedIds.2 (Or.inl (id_mem_of_mem_pairRules hrule)))

theorem Installed.rulesets {config : Config} {domain : String} {ids : IdPair}
    {stale : Option IdPair} {engine after : Engine}
    (h : Installed config domain ids stale engine after) : after.rulesets = engine.rulesets :=
  ((Engine.addRules_eq_ok_iff ..).1 h).2.2

/-- A pair that was installed and is removed leaves what removing it alone leaves. -/
theorem Installed.removeRules {config : Config} {domain : String} {ids : IdPair}
    {engine after : Engine} (h : Installed config domain ids none engine after) :
    after.removeRules ids.toList = engine.removeRules ids.toList := by
  refine Engine.ext_rule? h.rulesets fun id => ?_
  rw [Engine.rule?_removeRules, Engine.rule?_removeRules]
  split
  · rfl
  · rename_i hid
    exact h.rule?_of_not_mem (by rwa [clearedIds_none])

/-- No engine refuses the pair of a table once its ids are cleared. -/
theorem exists_installed (config : Config) (domain : String) {ids : IdPair} (h : ids.Proper)
    (stale : Option IdPair) (engine : Engine) :
    ∃ after, Installed config domain ids stale engine after := by
  have hnofault : (engine.removeRules (clearedIds ids stale)).batchFault? ∅
      (pairRules config domain ids) = none := by
    rw [Engine.batchFault?_eq_none_iff]
    constructor
    · intro rule hrule
      have hcleared : rule.id ∈ clearedIds ids stale :=
        mem_clearedIds.2 (Or.inl (id_mem_of_mem_pairRules hrule))
      refine ⟨?_, by rw [Engine.rule?_removeRules, if_pos hcleared], Std.HashSet.not_mem_empty⟩
      rcases mem_pairRules.1 hrule with rfl | rfl
      · exact h.incoming_ne_zero
      · exact h.outgoing_ne_zero
    · simpa [pairRules, Rule.allowInitiator, Rule.allowRequest] using h.incoming_ne_outgoing
  exact Engine.exists_addRules hnofault

/-- Installing a pair ends with the pair installed, with the engine as it was, or with the ids
cleared. -/
theorem guarantees_installPair {regime : Regime} {halted : World → Prop} {w : World}
    {config : Config} {domain : String} {ids : IdPair} {stale : Option IdPair}
    {post : Except InstallFailure Unit → World → Prop}
    (hok : ∀ engine after, Installed config domain ids stale w.engine engine →
      w.Becomes engine w.state after →
      after.Made [⟨.addRules (pairRules config domain ids), some (.ok ())⟩] → post (.ok ()) after)
    (huntouched : ∀ e after, regime.fails → w.Stays after → after.Failed →
      post (.error (.untouched e)) after)
    (hremoved : ∀ e after,
      regime.fails ∨ Refused config domain ids stale w.engine e →
      w.Becomes (w.engine.removeRules (clearedIds ids stale)) w.state after →
      after.Made [⟨.addRules (pairRules config domain ids), some (.error e)⟩,
        ⟨.removeRules (clearedIds ids stale), some (.ok ())⟩] →
      post (.error (.pairRemoved e)) after)
    (hhalted : ∀ after, regime.hangs → w.Stays after
      ∨ w.Becomes (w.engine.removeRules (clearedIds ids stale)) w.state after → halted after) :
    Guarantees regime halted (installPair config domain ids stale) w post := by
  rw [installPair, guarantees_bind]
  refine guarantees_removeRules ?_ ?_ ?_
  · intro cleared hcleared hremoval
    simp only
    rw [guarantees_bind]
    refine guarantees_addRules ?_ ?_ ?_
    · intro engine after hadd hafter hadded
      rw [hcleared.engine] at hadd
      exact hok engine after hadd (hcleared.trans (hcleared.state ▸ hafter)) hadded.made
    · intro e after hfailed hafter hrefused
      rw [hcleared.engine] at hfailed
      exact hremoved e after hfailed (hcleared.then_stays hafter) (hrefused.made_cons hremoval.made)
    · intro after hhangs hafter
      exact hhalted after hhangs (Or.inr (hcleared.then_stays hafter))
  · intro e after hfails hafter hrefused
    exact huntouched e after hfails hafter (hrefused.failed rfl)
  · intro after hhangs hafter
    exact hhalted after hhangs (Or.inl hafter)

end Override

end Blocklist
