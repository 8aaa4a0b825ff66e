import Blocklist.Proofs.Operation

set_option autoImplicit false

/-! # Which domains cost others their rules

Pairs of the table are apart, but the hashed ids of a domain that was exempted without a pair are
numbers like any others: clearing them takes the rules that stand there, whoever they belong to.
Without failures this is the only way in which one domain touches the rules of another. -/

namespace Blocklist.Override

/-- Clearing the hashed ids of a domain takes a rule from a pair. -/
def Hits (engine : Engine) (state : PersistedState) (domain : String) (ids : IdPair) : Prop :=
  Legacy state domain ∧ ∃ id ∈ ids.toList, id ∈ (IdPair.hashed domain).toList
    ∧ engine.rule? id ≠ none

/-- The rules of a domain are in the engine, at its pair. -/
def Live (config : Config) (engine : Engine) (state : PersistedState) (domain : String) : Prop :=
  ∃ ids, state.overrideIds.get? domain = some ids
    ∧ ∀ rule ∈ pairRules config domain ids, engine.rule? rule.id = some rule

section

variable {config : Config} {domain other : String} {ids p : IdPair} {w after : World}

/-! ## Toggles -/

theorem unchanged_iff_not_hits {engine engine' : Engine} {state : PersistedState}
    (hlegacy : Legacy state domain → ∀ id ∈ p.toList, id ∈ (IdPair.hashed domain).toList →
      engine'.rule? id = none)
    (hothers : ∀ id ∈ p.toList, ¬ (Legacy state domain ∧ id ∈ (IdPair.hashed domain).toList) →
      engine'.rule? id = engine.rule? id) :
    (∀ id ∈ p.toList, engine'.rule? id = engine.rule? id) ↔ ¬ Hits engine state domain p := by
  constructor
  · rintro hunchanged ⟨hl, id, hid, hhashed, hrule⟩
    exact hrule ((hunchanged id hid).symm.trans (hlegacy hl id hid hhashed))
  · intro hhits id hid
    by_cases hcleared : Legacy state domain ∧ id ∈ (IdPair.hashed domain).toList
    · have hnone : engine.rule? id = none := Classical.byContradiction fun hrule =>
        hhits ⟨hcleared.1, id, hid, hcleared.2, hrule⟩
      rw [hnone, hlegacy hcleared.1 id hid hcleared.2]
    · exact hothers id hid hcleared

/-- Exempting a domain takes the rules of another iff it succeeds and hits them. -/
theorem ExemptOutcome.unchanged_iff {result : Except OverrideError Transition}
    (hw : w.state.overrideIds.WellFormed) (hp : w.state.overrideIds.get? other = some p)
    (hne : other ≠ domain) (hend : ExemptOutcome .calm config domain w result after) :
    (∀ id ∈ p.toList, after.engine.rule? id = w.engine.rule? id)
      ↔ ¬ ((∃ t, result = .ok t) ∧ Hits w.engine w.state domain p) := by
  rcases hend.of_calm hw with ⟨e, rfl, hafter⟩
    | ⟨t, ids, stale, state, engine, now, rfl, hgranted, hinstalled, hafter⟩
  · rw [hafter.engine]
    exact iff_of_true (fun _ _ => rfl) (fun h => nomatch h.1)
  · rw [hafter.engine, and_iff_right ⟨_, rfl⟩]
    -- The pair of the domain is apart from that of the other one, so only stale ids matter.
    have hapart : ∀ id ∈ p.toList, id ∉ ids.toList :=
      (hgranted.wellFormed hw).disjoint (hgranted.get?_of_eq_some hp) hgranted.get?_self hne
    refine unchanged_iff_not_hits ?_ ?_
    · intro hlegacy id hid hhashed
      have hcleared : id ∈ clearedIds ids stale :=
        mem_clearedIds.2 (Or.inr ⟨_, (hgranted.stale_eq_some_iff _).2 ⟨hlegacy, rfl⟩, hhashed⟩)
      refine Option.eq_none_iff_forall_ne_some.2 fun rule hrule => ?_
      rcases (hinstalled.rule?_iff id rule).1 hrule with ⟨hmem, rfl⟩ | ⟨hkept, -⟩
      · exact hapart _ hid (id_mem_of_mem_pairRules hmem)
      · exact hkept hcleared
    · intro id hid hmiss
      refine hinstalled.rule?_of_not_mem ?_
      rw [mem_clearedIds]
      rintro (hmem | ⟨old, hold, hmem⟩)
      · exact hapart id hid hmem
      · obtain ⟨hlegacy, rfl⟩ := (hgranted.stale_eq_some_iff old).1 hold
        exact hmiss ⟨hlegacy, hmem⟩

/-- Blocking a domain takes the rules of another iff it hits them. -/
theorem UnexemptOutcome.unchanged_iff {result : Except OverrideError Transition}
    (hw : w.state.overrideIds.WellFormed) (hp : w.state.overrideIds.get? other = some p)
    (hne : other ≠ domain)
    (hend : UnexemptOutcome .calm config domain w (touchedIds w.state domain) result after) :
    (∀ id ∈ p.toList, after.engine.rule? id = w.engine.rule? id)
      ↔ ¬ ((∃ t, result = .ok t) ∧ Hits w.engine w.state domain p) := by
  obtain ⟨now, rfl, hafter⟩ := hend.of_calm
  have hengine : after.engine = blocked w.engine w.state domain := hafter.engine
  rw [hengine, and_iff_right ⟨_, rfl⟩]
  cases hids : w.state.overrideIds.get? domain with
  | some ids =>
    have hapart := hw.disjoint hp hids hne
    rw [blocked_of_touchedIds_eq_some (touchedIds_of_get?_eq_some hids)]
    refine iff_of_true ?_ ?_
    · intro id hid
      rw [Engine.rule?_removeRules, if_neg (hapart id hid)]
    · rintro ⟨⟨-, hnone⟩, -⟩
      cases hids.symm.trans hnone
  | none =>
    refine unchanged_iff_not_hits ?_ ?_
    · intro hlegacy id _ hhashed
      rw [blocked_of_touchedIds_eq_some (touchedIds_of_legacy hlegacy),
        Engine.rule?_removeRules, if_pos hhashed]
    · intro id hid hmiss
      by_cases hexempted : w.state.isExempted domain = true
      · have hlegacy : Legacy w.state domain := ⟨hexempted, hids⟩
        rw [blocked_of_touchedIds_eq_some (touchedIds_of_legacy hlegacy),
          Engine.rule?_removeRules, if_neg fun hhashed => hmiss ⟨hlegacy, hhashed⟩]
      · have htouched : touchedIds w.state domain = none := by
          rw [touchedIds_of_get?_eq_none hids, staleIds, if_neg hexempted]
        rw [blocked_of_touchedIds_eq_none htouched]

/-! ## Restorations -/

/-- A domain that is migrated later does not clear the pair of a domain that is restored before. -/
def Spares (before after : PersistedState) (first later : String) : Prop :=
  Legacy before later → ∀ ids, after.overrideIds.get? first = some ids →
    (IdPair.hashed later).overlaps ids = false

/-- How far a restoration of the state `s` has come that has restored `restored` and has `left`
still to restore. Once a domain is denied a pair, nothing is said any more about the rest. -/
structure Restoring (config : Config) (s : PersistedState) (restored left : List String)
    (report : RestoreReport) (u : World) : Prop where
  split : s.exemptedDomains = restored ++ left
  exempted : u.state.exemptedDomains = s.exemptedDomains
  wellFormed : u.state.overrideIds.WellFormed
  kept : ∀ {domain ids}, s.overrideIds.get? domain = some ids →
    u.state.overrideIds.get? domain = some ids
  pending : ∀ domain ∈ left, u.state.overrideIds.get? domain = s.overrideIds.get? domain
  given : report.failed = [] → ∀ domain ∈ restored,
    ∃ ids, u.state.overrideIds.get? domain = some ids
  live : report.failed = [] → ((∀ domain ∈ restored, Live config u.engine u.state domain)
    ↔ restored.Pairwise (Spares s u.state))

theorem Restoring.isExempted {s : PersistedState} {restored left : List String}
    {report : RestoreReport} (h : Restoring config s restored left report w) (domain : String) :
    w.state.isExempted domain = s.isExempted domain := by
  rw [PersistedState.isExempted, PersistedState.isExempted, h.exempted]

theorem live_iff {engine : Engine} {state : PersistedState}
    (hp : state.overrideIds.get? other = some p) :
    Live config engine state other
      ↔ ∀ rule ∈ pairRules config other p, engine.rule? rule.id = some rule := by
  constructor
  · rintro ⟨q, hq, hrules⟩
    obtain rfl : q = p := Option.some.inj (hq.symm.trans hp)
    exact hrules
  · intro hrules
    exact ⟨p, hp, hrules⟩

/-- An installation leaves the rules of another domain unless it clears stale ids among them. -/
theorem live_iff_of_installed {engine engine' : Engine} {state state' : PersistedState}
    {stale : Option IdPair} (hgranted : Granted config domain state ids stale state')
    (hw : state.overrideIds.WellFormed)
    (hinstalled : Installed config domain ids stale engine engine')
    (hne : other ≠ domain) (hp : state.overrideIds.get? other = some p) :
    Live config engine' state' other
      ↔ Live config engine state other
        ∧ (Legacy state domain → (IdPair.hashed domain).overlaps p = false) := by
  have hp' := hgranted.get?_of_eq_some hp
  have hapart : ∀ id ∈ p.toList, id ∉ ids.toList :=
    (hgranted.wellFormed hw).disjoint hp' hgranted.get?_self hne
  rw [live_iff hp, live_iff hp']
  constructor
  · intro hlive
    have hkept : ∀ rule ∈ pairRules config other p,
        rule.id ∉ clearedIds ids stale ∧ engine.rule? rule.id = some rule := by
      intro rule hrule
      rcases (hinstalled.rule?_iff rule.id rule).1 (hlive rule hrule) with ⟨hmem, -⟩ | hkept
      · exact absurd (id_mem_of_mem_pairRules hmem) (hapart _ (id_mem_of_mem_pairRules hrule))
      · exact hkept
    refine ⟨fun rule hrule => (hkept rule hrule).2, fun hlegacy => Bool.eq_false_iff.2 ?_⟩
    rw [Ne, IdPair.overlaps_eq_true_iff]
    rintro ⟨id, hhashed, hid⟩
    -- Either id of a pair carries a rule, so clearing one of them takes it.
    obtain ⟨rule, hrule, rfl⟩ := exists_mem_pairRules config other hid
    have hstale := (hgranted.stale_eq_some_iff _).2 ⟨hlegacy, rfl⟩
    exact (hkept rule hrule).1 (mem_clearedIds.2 (Or.inr ⟨_, hstale, hhashed⟩))
  · rintro ⟨hlive, hspared⟩ rule hrule
    have hid := id_mem_of_mem_pairRules hrule
    rw [hinstalled.rule?_of_not_mem, hlive rule hrule]
    rw [mem_clearedIds]
    rintro (hmem | ⟨old, hold, hmem⟩)
    · exact hapart _ hid hmem
    · obtain ⟨hlegacy, rfl⟩ := (hgranted.stale_eq_some_iff old).1 hold
      have hoverlaps := IdPair.overlaps_eq_true_iff.2 ⟨_, hmem, hid⟩
      rw [hspared hlegacy] at hoverlaps
      cases hoverlaps

section

variable {s state : PersistedState} {restored left : List String} {report : RestoreReport}
  {stale : Option IdPair} {engine : Engine}

theorem Restoring.split_next (h : Restoring config s restored (domain :: left) report w) :
    s.exemptedDomains = (restored ++ [domain]) ++ left := by
  rw [h.split, List.append_assoc, List.singleton_append]

/-- Once a domain is denied a pair, the report says that it failed. -/
theorem Restoring.denied (h : Restoring config s restored (domain :: left) report w)
    (e : OverrideError) (hafter : w.Stays after) :
    Restoring config s (restored ++ [domain]) left (report.next domain (.error e)) after := by
  have hfailed : (report.next domain (.error e)).failed ≠ [] := by simp [RestoreReport.next]
  refine ⟨h.split_next, hafter.state ▸ h.exempted, hafter.state ▸ h.wellFormed,
    hafter.state ▸ h.kept, ?_, fun hnone => absurd hnone hfailed, fun hnone => absurd hnone hfailed⟩
  intro other hother
  rw [hafter.state]
  exact h.pending other (List.mem_cons_of_mem _ hother)

/-- With one more domain installed, all are live iff they were before and this one spares them. -/
theorem Restoring.live_next (h : Restoring config s restored (domain :: left) report w)
    (hgranted : Granted config domain w.state ids stale state)
    (hinstalled : Installed config domain ids stale w.engine engine)
    (hne : ∀ other ∈ restored, other ≠ domain) (hnone : report.failed = []) :
    (∀ other ∈ restored ++ [domain], Live config engine state other)
      ↔ (restored ++ [domain]).Pairwise (Spares s state) := by
  have hlegacy : Legacy w.state domain ↔ Legacy s domain := by
    rw [Legacy, Legacy, h.isExempted, h.pending domain (List.mem_cons_self ..)]
  have hself : Live config engine state domain :=
    ⟨ids, hgranted.get?_self, fun rule hrule =>
      (hinstalled.rule?_of_mem (id_mem_of_mem_pairRules hrule) rule).2 ⟨hrule, rfl⟩⟩
  have hothers : ∀ other ∈ restored, Live config engine state other
      ↔ Live config w.engine w.state other ∧ Spares s state other domain := by
    intro other hother
    obtain ⟨p, hp⟩ := h.given hnone other hother
    rw [live_iff_of_installed hgranted h.wellFormed hinstalled (hne other hother) hp, hlegacy]
    refine and_congr_right fun _ => imp_congr_right fun _ => ?_
    simp [hgranted.get?_of_eq_some hp]
  -- The pairs of the domains restored before are the same in both tables.
  have hpairs : restored.Pairwise (Spares s state) ↔ restored.Pairwise (Spares s w.state) := by
    refine List.Pairwise.iff_of_mem fun hother _ => ?_
    rw [Spares, Spares, hgranted.get?_of_ne (hne _ hother)]
  rw [List.pairwise_append, hpairs, ← h.live hnone]
  simp only [List.forall_mem_append, List.forall_mem_singleton, hself, and_true,
    List.pairwise_singleton, true_and]
  constructor
  · intro hlive
    exact ⟨fun other hother => ((hothers other hother).1 (hlive other hother)).1,
      fun other hother => ((hothers other hother).1 (hlive other hother)).2⟩
  · rintro ⟨hlive, hspared⟩ other hother
    exact (hothers other hother).2 ⟨hlive other hother, hspared other hother⟩

/-- A domain is installed at the pair that it was granted. -/
theorem Restoring.installs (h : Restoring config s restored (domain :: left) report w)
    (hnodup : s.exemptedDomains.Nodup) (hgranted : Granted config domain w.state ids stale state)
    (hinstalled : Installed config domain ids stale w.engine engine)
    (hafter : w.Becomes engine state after) :
    Restoring config s (restored ++ [domain]) left (report.next domain (.ok true)) after := by
  rw [h.split, List.nodup_append] at hnodup
  obtain ⟨-, hleft, hboth⟩ := hnodup
  have hne : ∀ other ∈ restored, other ≠ domain := fun other hother =>
    hboth other hother domain (List.mem_cons_self ..)
  refine ⟨h.split_next, ?_, ?_, ?_, ?_, ?_, ?_⟩
  · rw [hafter.state, hgranted.exemptedDomains, h.exempted]
  · rw [hafter.state]
    exact hgranted.wellFormed h.wellFormed
  · intro other p hp
    rw [hafter.state]
    exact hgranted.get?_of_eq_some (h.kept hp)
  · intro other hother
    rw [hafter.state, hgranted.get?_of_ne, h.pending other (List.mem_cons_of_mem _ hother)]
    rintro rfl
    exact (List.nodup_cons.1 hleft).1 hother
  · intro hnone other hother
    rw [hafter.state]
    rcases List.mem_append.1 hother with hother | hother
    · obtain ⟨p, hp⟩ := h.given hnone other hother
      exact ⟨p, hgranted.get?_of_eq_some hp⟩
    · rw [List.mem_singleton.1 hother]
      exact ⟨ids, hgranted.get?_self⟩
  · intro hnone
    rw [hafter.engine, hafter.state]
    exact h.live_next hgranted hinstalled hne hnone

theorem Restoring.next {result : Except OverrideError Bool} (hnodup : s.exemptedDomains.Nodup)
    (h : Restoring config s restored (domain :: left) report w)
    (hout : RestoreOutcome .calm config domain w result after) :
    Restoring config s (restored ++ [domain]) left (report.next domain result) after := by
  rcases hout.of_calm h.wellFormed with ⟨-, hexempted, -⟩ | ⟨e, rfl, -, -, -, hafter⟩
    | ⟨ids, stale, state, engine, rfl, -, hgranted, hinstalled, hafter⟩
  · -- The domain is one of those that are exempted.
    have hmem : domain ∈ w.state.exemptedDomains := by
      rw [h.exempted, h.split]
      exact List.mem_append_right _ (List.mem_cons_self ..)
    exact absurd hmem (PersistedState.not_mem_of_isExempted_eq_false hexempted)
  · exact h.denied (.ids e) hafter
  · exact h.installs hnodup hgranted hinstalled hafter

end

/-- Clearing a stray domain leaves the rules of the exempted ones. -/
theorem Restoring.strayCleared {s : PersistedState} {report : RestoreReport} {removed : List String}
    {result : Except OverrideError Bool} (h : Restoring config s s.exemptedDomains [] report w)
    (hout : ClearOutcome .calm domain w result after) :
    Restoring config s s.exemptedDomains [] { report with removed } after := by
  cases hout with
  | skipped _ hafter =>
    exact ⟨h.split, hafter.state ▸ h.exempted, hafter.state ▸ h.wellFormed,
      hafter.state ▸ h.kept, nofun, hafter.state ▸ h.given, hafter.state ▸ hafter.engine ▸ h.live⟩
  | failed _ hdisturbs _ => exact absurd hdisturbs Regime.not_disturbs_calm
  | @done ids _ hids hexempted hafter =>
    refine ⟨h.split, hafter.state ▸ h.exempted, hafter.state ▸ h.wellFormed,
      hafter.state ▸ h.kept, nofun, hafter.state ▸ h.given, fun hnone => ?_⟩
    rw [hafter.state, hafter.engine, ← h.live hnone]
    refine forall₂_congr fun other hother => ?_
    obtain ⟨p, hp⟩ := h.given hnone other hother
    have hne : other ≠ domain := by
      rintro rfl
      rw [h.isExempted] at hexempted
      exact PersistedState.not_mem_of_isExempted_eq_false hexempted hother
    rw [live_iff hp, live_iff hp]
    refine forall₂_congr fun rule hrule => ?_
    rw [Engine.rule?_removeRules,
      if_neg (h.wellFormed.disjoint hp hids hne _ (id_mem_of_mem_pairRules hrule))]

end

theorem guarantees_restore_restoring {manager : Manager} {w : World}
    (htable : manager.config.idScheme = .table) (hw : w.state.overrideIds.WellFormed)
    (hnodup : w.state.exemptedDomains.Nodup) :
    Guarantees .calm (fun _ => False) manager.restore w fun outcome after =>
      ∀ report, outcome.1 = .ok report →
        Restoring manager.config w.state w.state.exemptedDomains [] report after := by
  refine guarantees_restore (guarantees_restoreAll htable Regime.quiet_calm id
    (fun left report u => ∃ restored, Restoring manager.config w.state restored left report u)
    (fun _ report u => Restoring manager.config w.state w.state.exemptedDomains [] report u)
    ?_ ?_ ?_ ?_ ?_ ?_)
  · intro e after _ _ report hreport
    cases hreport
  · intro reconciled after hout
    have hstate : after.state = w.state := by
      cases hout with
      | agreed _ hafter => exact hafter.state
      | done hafter => exact hafter.state
    exact ⟨[], rfl, by rw [hstate], hstate ▸ hw, fun hp => by rwa [hstate],
      fun _ _ => by rw [hstate], fun _ => nofun, fun _ => iff_of_true nofun .nil⟩
  · rintro domain left report u result v ⟨restored, hu⟩ hout
    exact ⟨_, hu.next hnodup hout⟩
  · rintro report u ⟨restored, hu⟩
    obtain rfl : restored = w.state.exemptedDomains := by rw [hu.split, List.append_nil]
    exact hu
  · intro domain rest report u result v hu hout
    exact hu.strayCleared hout
  · rintro report after hafter _ ⟨⟩
    exact hafter

section

-- Otherwise the elaborator tries to compute the name of an unknown input.
attribute [local irreducible] Manager.domainOf

theorem guarantees_setDomainBlocking_unchanged {manager : Manager} {w : World}
    {input domain : String} {blocked : Bool} (htable : manager.config.idScheme = .table)
    (hw : w.state.overrideIds.WellFormed) (hdomain : Manager.domainOf input = .ok domain) :
    Guarantees .calm (fun _ => False) (manager.setDomainBlocking input blocked) w
      fun outcome after => outcome.2 = manager.forget
        ∧ ∀ other p, other ≠ domain → w.state.overrideIds.get? other = some p →
          ((∀ id ∈ p.toList, after.engine.rule? id = w.engine.rule? id)
            ↔ ¬ ((∃ t, outcome.1 = .ok t) ∧ Hits w.engine w.state domain p)) := by
  rw [guarantees_setDomainBlocking hdomain, toggle]
  split
  · exact guarantees_unexempt htable Regime.quiet_calm
      (fun result after hend => ⟨rfl, fun other p hne hp => hend.unchanged_iff hw hp hne⟩)
      fun _ hhangs => hhangs.elim
  · exact guarantees_exempt htable Regime.quiet_calm
      (fun result after hend => ⟨rfl, fun other p hne hp => hend.unchanged_iff hw hp hne⟩)
      fun _ hhangs => hhangs.elim

/-- Without failures, a toggle leaves the rules at another domain's pair as they were unless it
succeeds and the domain was exempted without a pair and its hashed ids hit them; and a restoration
in which no domain failed leaves all exempted domains with their rules iff no domain that was
exempted without a pair has its hashed ids among the pair of one that was exempted earlier. -/
theorem rules_kept_iff {view : Store.View} (manager : Manager) (env : Environment) {v : Versioned}
    (htable : manager.config.idScheme = .table) (hholds : view.Holds env.store v)
    (hcalm : Regime.calm.Admits env.schedule) (hw : v.state.overrideIds.WellFormed)
    (hnodup : v.state.exemptedDomains.Nodup) :
    (∀ input domain blocked, Manager.domainOf input = .ok domain →
      ∃ result after,
        env.run (manager.setDomainBlocking input blocked) = (some (result, manager.forget), after)
        ∧ ∀ other p, other ≠ domain → v.state.overrideIds.get? other = some p →
          ((∀ id ∈ p.toList, after.engine.rule? id = env.engine.rule? id)
            ↔ ¬ ((∃ t, result = .ok t) ∧ Hits env.engine v.state domain p)))
    ∧ ∃ outcome after v',
        env.run manager.restore = (some outcome, after)
        ∧ view.Holds after.store v'
        ∧ ∀ report, outcome.1 = .ok report → report.failed = [] →
          v'.state.exemptedDomains = v.state.exemptedDomains
          ∧ (∀ domain ids, v.state.overrideIds.get? domain = some ids →
              v'.state.overrideIds.get? domain = some ids)
          ∧ (∀ domain ∈ v.state.exemptedDomains,
              ∃ ids, v'.state.overrideIds.get? domain = some ids)
          ∧ ((∀ domain ∈ v.state.exemptedDomains,
                Live manager.config after.engine v'.state domain)
              ↔ v.state.exemptedDomains.Pairwise (Spares v.state v'.state)) := by
  constructor
  · intro input domain blocked hdomain
    obtain ⟨⟨result, manager'⟩, after, v', hrun, -, rfl, hend⟩ :=
      (guarantees_setDomainBlocking_unchanged (w := ⟨env.engine, v, []⟩) htable hw
        hdomain).exists_run env hholds hcalm
    exact ⟨result, after, hrun, hend⟩
  · obtain ⟨outcome, after, v', hrun, hheld, hend⟩ :=
      (guarantees_restore_restoring (w := ⟨env.engine, v, []⟩) htable hw hnodup).exists_run
        env hholds hcalm
    refine ⟨outcome, after, v', hrun, hheld, fun report hreport hnone => ?_⟩
    have hrestoring := hend report hreport
    exact ⟨hrestoring.exempted, fun _ _ hids => hrestoring.kept hids, hrestoring.given hnone,
      hrestoring.live hnone⟩

end

/-! ## A domain with a pair and one without -/

/-- A domain with a pair and one that was exempted without. -/
def migratingState (legacy : String) : PersistedState where
  enabled := true
  lastUpdate := none
  exemptedDomains := ["new.com", legacy]
  overrideIds := ⟨16777216, 16777218,
    (∅ : Std.ExtTreeMap String IdPair).insert "new.com" ⟨16777216, 16777217⟩⟩

theorem get?_migratingState (legacy domain : String) :
    (migratingState legacy).overrideIds.get? domain
      = if "new.com" = domain then some ⟨16777216, 16777217⟩ else none := by
  simp [IdTable.get?, migratingState, Std.ExtTreeMap.getElem?_insert]

theorem wellFormed_migratingState (legacy : String) :
    (migratingState legacy).overrideIds.WellFormed := by
  have hget : ∀ {domain ids}, (migratingState legacy).overrideIds.get? domain = some ids →
      domain = "new.com" ∧ ids = ⟨16777216, 16777217⟩ := by
    intro domain ids hids
    rw [get?_migratingState] at hids
    split at hids
    · rename_i heq
      exact ⟨heq.symm, (Option.some.inj hids).symm⟩
    · cases hids
  constructor
  · show (16777218 : UInt32) ≠ 0
    decide
  · intro domain ids hids
    obtain ⟨-, rfl⟩ := hget hids
    exact ⟨by decide, by decide, rfl⟩
  · intro domain ids hids
    obtain ⟨-, rfl⟩ := hget hids
    exact Or.inl (by show (16777217 : UInt32) < 16777218; decide)
  · intro a b p q ha hb hab
    exact absurd ((hget ha).1.trans (hget hb).1.symm) hab

/-- Here the hash of the second domain is far from the pair of the first. -/
theorem rules_kept_of_distant_hash :
    ∃ outcome after v',
      Environment.run (Manager.restore ⟨.standard, .new 1000⟩)
          ⟨.withRulesets ["ruleset_1"], .memory ⟨1, migratingState "old.com"⟩, 0, .faultless, []⟩
        = (some outcome, after)
      ∧ Store.View.memory.Holds after.store v'
      ∧ ∀ report, outcome.1 = .ok report → report.failed = [] →
        ∀ domain ∈ ["new.com", "old.com"], Live .standard after.engine v'.state domain := by
  have hholds : Store.View.memory.Holds (.memory ⟨1, migratingState "old.com"⟩)
      ⟨1, migratingState "old.com"⟩ := rfl
  obtain ⟨-, outcome, after, v', hrun, hheld, hend⟩ :=
    rules_kept_iff ⟨.standard, .new 1000⟩
      ⟨.withRulesets ["ruleset_1"], .memory ⟨1, migratingState "old.com"⟩, 0, .faultless, []⟩
      rfl hholds (Regime.admits_faultless _) (wellFormed_migratingState "old.com") (by decide)
  refine ⟨outcome, after, v', hrun, hheld, fun report hreport hnone => ?_⟩
  obtain ⟨-, hkept, -, hlive⟩ := hend report hreport hnone
  refine hlive.2 (List.pairwise_pair.2 fun _ ids hids => ?_)
  have hfirst := hkept "new.com" _ (get?_migratingState ..)
  cases hids.symm.trans hfirst
  decide

/-- While the table has room, both are restored. -/
theorem guarantees_restore_migrating {legacy : String} {log : List Exchange} {revision : UInt64}
    (hroom : ∃ p, allocation .standard (migratingState legacy).overrideIds legacy = .ok p) :
    Guarantees .calm (fun _ => False) (Manager.restore ⟨.standard, .new 1000⟩)
      ⟨.withRulesets ["ruleset_1"], ⟨revision, migratingState legacy⟩, log⟩ fun outcome _ =>
        ∃ report, outcome = (.ok report, Manager.forget ⟨.standard, .new 1000⟩)
          ∧ report.failed = [] := by
  obtain ⟨granted, hroom⟩ := hroom
  refine guarantees_restore (guarantees_restoreAll rfl Regime.quiet_calm id
    (fun left report u => report.failed = []
      ∧ (u.state = migratingState legacy ∧ (left = ["new.com", legacy] ∨ left = [legacy])
        ∨ left = []))
    (fun _ report _ => report.failed = []) ?_ ?_ ?_ ?_ ?_ ?_)
  · intro e after hcause _
    exact hcause.elim (absurd · Regime.not_disturbs_calm) (absurd rfl ·)
  · intro reconciled after hout
    refine ⟨rfl, Or.inl ⟨?_, Or.inl rfl⟩⟩
    cases hout with
    | agreed _ hafter => exact hafter.state
    | done hafter => exact hafter.state
  · rintro domain rest report u result v ⟨hnone, ⟨hstate, hleft⟩ | hleft⟩ hout
    · rcases hout.of_calm (hstate ▸ wellFormed_migratingState legacy) with
        ⟨rfl, -, hafter⟩ | ⟨e, rfl, -, hnew, hallocation, -⟩
          | ⟨ids, stale, state, engine, rfl, -, hgranted, -, hafter⟩
      · refine ⟨hnone, ?_⟩
        rcases hleft with hleft | hleft <;> cases hleft
        · exact Or.inl ⟨hafter.state.trans hstate, Or.inr rfl⟩
        · exact Or.inr rfl
      · rw [hstate] at hnew hallocation
        rcases hleft with hleft | hleft <;> cases hleft
        · rw [get?_migratingState, if_pos rfl] at hnew
          cases hnew
        · cases hallocation.symm.trans hroom
      · refine ⟨hnone, ?_⟩
        rw [hstate] at hgranted
        rcases hleft with hleft | hleft <;> cases hleft
        · have hids : (migratingState legacy).overrideIds.get? "new.com"
              = some ⟨16777216, 16777217⟩ := by rw [get?_migratingState, if_pos rfl]
          obtain ⟨-, -, rfl⟩ := hgranted.eq_of_get?_eq_some hids
          exact Or.inl ⟨hafter.state, Or.inr rfl⟩
        · exact Or.inr rfl
    · cases hleft
  · rintro report u ⟨hnone, -⟩
    exact hnone
  · intro domain rest report u result v hnone _
    exact hnone
  · intro report after hnone
    exact ⟨report, rfl, hnone⟩

/-- The hash of the second domain is the first id of the table, so its migration clears the pair of
the first one, though the restoration reports both as restored. -/
theorem restore_loses_rules :
    (migratingState "rlqaarzl.com").overrideIds.WellFormed
      ∧ (migratingState "rlqaarzl.com").exemptedDomains.Nodup
      ∧ ∃ report after v',
        Environment.run (Manager.restore ⟨.standard, .new 1000⟩)
            ⟨.withRulesets ["ruleset_1"], .memory ⟨1, migratingState "rlqaarzl.com"⟩, 0, .faultless,
              []⟩
          = (some (.ok report, Manager.forget ⟨.standard, .new 1000⟩), after)
        ∧ Store.View.memory.Holds after.store v'
        ∧ report.failed = []
        ∧ ¬ ∀ domain ∈ v'.state.exemptedDomains,
            Live .standard after.engine v'.state domain := by
  have hw := wellFormed_migratingState "rlqaarzl.com"
  have hnodup : (migratingState "rlqaarzl.com").exemptedDomains.Nodup := by decide
  refine ⟨hw, hnodup, ?_⟩
  have hholds : Store.View.memory.Holds (.memory ⟨1, migratingState "rlqaarzl.com"⟩)
      ⟨1, migratingState "rlqaarzl.com"⟩ := rfl
  have hrestoring : Guarantees .calm (fun _ => False) (Manager.restore ⟨.standard, .new 1000⟩)
      ⟨.withRulesets ["ruleset_1"], ⟨1, migratingState "rlqaarzl.com"⟩, []⟩ _ :=
    guarantees_restore_restoring rfl hw hnodup
  obtain ⟨_, after, v', hrun, hheld, hend, report, rfl, hnone⟩ :=
    (hrestoring.and (guarantees_restore_migrating ⟨_, rfl⟩)).exists_run
      ⟨.withRulesets ["ruleset_1"], .memory ⟨1, migratingState "rlqaarzl.com"⟩, 0, .faultless, []⟩
      hholds (Regime.admits_faultless _)
  refine ⟨report, after, v', hrun, hheld, hnone, ?_⟩
  have hrestored := hend report rfl
  have hexempted : v'.state.exemptedDomains = ["new.com", "rlqaarzl.com"] := hrestored.exempted
  have hfirst : v'.state.overrideIds.get? "new.com" = some ⟨16777216, 16777217⟩ :=
    hrestored.kept (get?_migratingState ..)
  rw [hexempted]
  intro hlive
  have hspares := (hrestored.live hnone).1 hlive
  have hlegacy : Legacy (migratingState "rlqaarzl.com") "rlqaarzl.com" := ⟨rfl, rfl⟩
  have hspared := (List.pairwise_pair.1 hspares) hlegacy _ hfirst
  revert hspared
  decide

end Blocklist.Override
