import Blocklist.Proofs.Toggle

set_option autoImplicit false

/-! # How a restoration can end

The cases for one domain of each pass (`RestoreOutcome`, `ClearOutcome`) and for the switch of the
ruleset (`ReconcileOutcome`), and from them one rule for the whole restoration
(`guarantees_restoreAll`): what each domain keeps holds at the end. -/

namespace Blocklist.Override

variable {regime : Regime} {halted : World → Prop} {w : World}

/-! ## One exempted domain -/

/-- How the restoration of a domain ends. -/
inductive RestoreOutcome (regime : Regime) (config : Config) (domain : String) (w : World) :
    Except OverrideError Bool → World → Prop where
  | skipped {after : World} : w.state.isExempted domain = false → w.Stays after →
      RestoreOutcome regime config domain w (.ok false) after
  | refused {e : IdError} {after : World} : w.state.isExempted domain = true →
      w.state.overrideIds.get? domain = none →
      allocation config w.state.overrideIds domain = .error e → w.Stays after →
      RestoreOutcome regime config domain w (.error (.ids e)) after
  | failed (e : OverrideError) {after : World} : regime.Disturbs → w.Stays after →
      RestoreOutcome regime config domain w (.error e) after
  /-- The engine was not touched. -/
  | untouched (e : OverrideError) {ids : IdPair} {stale : Option IdPair} {state : PersistedState}
      {after : World} : w.state.isExempted domain = true →
      Granted config domain w.state ids stale state → regime.Disturbs →
      w.Becomes w.engine state after → after.Failed →
      RestoreOutcome regime config domain w (.error e) after
  /-- The pair is not there. -/
  | cleared (e : OverrideError) {ids : IdPair} {stale : Option IdPair} {state : PersistedState}
      {after : World} : w.state.isExempted domain = true →
      Granted config domain w.state ids stale state →
      regime.fails ∨ (∀ engine, ¬ Installed config domain ids stale w.engine engine) →
      w.Becomes (w.engine.removeRules (clearedIds ids stale)) state after →
      RestoreOutcome regime config domain w (.error e) after
  | done {ids : IdPair} {stale : Option IdPair} {state : PersistedState} {engine : Engine}
      {after : World} : w.state.isExempted domain = true →
      Granted config domain w.state ids stale state →
      Installed config domain ids stale w.engine engine → w.Becomes engine state after →
      RestoreOutcome regime config domain w (.ok true) after

theorem RestoreOutcome.then_stays {config : Config} {domain : String}
    {result : Except OverrideError Bool} {after last : World}
    (h : RestoreOutcome regime config domain w result after) (hlast : after.Stays last) :
    RestoreOutcome regime config domain w result last := by
  cases h with
  | skipped hexempted hafter => exact .skipped hexempted (hafter.then_stays hlast)
  | refused hexempted hnew hallocation hafter =>
    exact .refused hexempted hnew hallocation (hafter.then_stays hlast)
  | failed e hdisturbs hafter => exact .failed e hdisturbs (hafter.then_stays hlast)
  | untouched e hexempted hgranted hdisturbs hafter hfailed =>
    exact .untouched e hexempted hgranted hdisturbs (hafter.then_stays hlast)
      (hfailed.becomes hlast)
  | cleared e hexempted hgranted hfailed hafter =>
    exact .cleared e hexempted hgranted hfailed (hafter.then_stays hlast)
  | done hexempted hgranted hinstalled hafter =>
    exact .done hexempted hgranted hinstalled (hafter.then_stays hlast)

/-- Without failures a domain is passed over, gets no pair or is installed. -/
theorem RestoreOutcome.of_calm {config : Config} {domain : String}
    {result : Except OverrideError Bool} {after : World} (hw : w.state.overrideIds.WellFormed)
    (h : RestoreOutcome .calm config domain w result after) :
    (result = .ok false ∧ w.state.isExempted domain = false ∧ w.Stays after)
      ∨ (∃ e, result = .error (.ids e) ∧ w.state.isExempted domain = true
          ∧ w.state.overrideIds.get? domain = none
          ∧ allocation config w.state.overrideIds domain = .error e ∧ w.Stays after)
      ∨ (∃ ids stale state engine, result = .ok true ∧ w.state.isExempted domain = true
          ∧ Granted config domain w.state ids stale state
          ∧ Installed config domain ids stale w.engine engine ∧ w.Becomes engine state after) := by
  cases h with
  | skipped hexempted hafter => exact Or.inl ⟨rfl, hexempted, hafter⟩
  | refused hexempted hnew hallocation hafter =>
    exact Or.inr (Or.inl ⟨_, rfl, hexempted, hnew, hallocation, hafter⟩)
  | failed _ hdisturbs _ => exact absurd hdisturbs Regime.not_disturbs_calm
  | untouched _ _ _ hdisturbs _ _ => exact absurd hdisturbs Regime.not_disturbs_calm
  | cleared _ _ hgranted hfailed _ =>
    obtain ⟨engine, hinstalled⟩ := exists_installed config domain (hgranted.proper hw) _ w.engine
    exact hfailed.elim False.elim fun h => absurd hinstalled (h engine)
  | done hexempted hgranted hinstalled hafter =>
    exact Or.inr (Or.inr ⟨_, _, _, _, rfl, hexempted, hgranted, hinstalled, hafter⟩)

/-- The rulesets are left alone. -/
theorem RestoreOutcome.rulesets {config : Config} {domain : String}
    {result : Except OverrideError Bool} {after : World}
    (h : RestoreOutcome regime config domain w result after) :
    after.engine.rulesets = w.engine.rulesets := by
  cases h with
  | skipped _ hafter => rw [hafter.engine]
  | refused _ _ _ hafter => rw [hafter.engine]
  | failed _ _ hafter => rw [hafter.engine]
  | untouched _ _ _ _ hafter _ => rw [hafter.engine]
  | cleared _ _ _ _ hafter =>
    rw [hafter.engine]
    rfl
  | done _ _ hinstalled hafter => rw [hafter.engine, hinstalled.rulesets]

theorem guarantees_restoreDomain {config : Config} {domain : String}
    (htable : config.idScheme = .table) (hquiet : regime.Quiet) (hanswered : ¬ regime.hangs)
    {post : Except OverrideError Bool → World → Prop}
    (hend : ∀ result after, RestoreOutcome regime config domain w result after →
      post result after) :
    Guarantees regime halted (restoreDomain config domain).run w post := by
  unfold restoreDomain
  rw [guarantees_attempt_bind]
  refine guarantees_loadState hquiet ?_ ?_ fun _ hhangs => absurd hhangs hanswered
  · intro read hread
    simp only
    cases hexempted : w.state.isExempted domain with
    | false => exact hend _ read (.skipped hexempted hread)
    | true =>
      simp only [Bool.not_true, Bool.false_eq_true, if_false]
      rw [guarantees_attempt_bind]
      refine guarantees_idsForInstall htable hquiet ?_ ?_ ?_ fun _ hhangs => absurd hhangs hanswered
      · intro ids stale state granted hgranted hbecomes
        rw [hread.state] at hgranted
        rw [hread.engine] at hbecomes
        have hbecomes := hread.trans hbecomes
        simp only
        rw [guarantees_attempt_bind, guarantees_attempt_lift]
        refine guarantees_installPair ?_ ?_ ?_ fun _ hhangs => absurd hhangs hanswered
        · intro engine after hinstalled hafter _
          rw [hbecomes.engine] at hinstalled
          rw [hbecomes.state] at hafter
          exact hend _ after (.done hexempted hgranted hinstalled (hbecomes.trans hafter))
        · intro e after hfails hafter hfailed
          exact hend _ after (.untouched _ hexempted hgranted (.inl hfails)
            (hbecomes.then_stays hafter) hfailed)
        · intro e after hfailed hafter _
          rw [hbecomes.engine] at hfailed hafter
          rw [hbecomes.state] at hafter
          exact hend _ after (.cleared _ hexempted hgranted (hfailed.imp_right (·.not_installed))
            (hbecomes.trans hafter))
      · intro e after hnew hallocation hafter
        rw [hread.state] at hnew hallocation
        exact hend _ after (.refused hexempted hnew hallocation (hread.then_stays hafter))
      · intro e after hdisturbs hafter _
        exact hend _ after (.failed e hdisturbs (hread.then_stays hafter))
  · intro e after hdisturbs hafter _
    exact hend _ after (.failed e hdisturbs hafter)

/-- The report after the restoration of a domain. -/
def RestoreReport.next (report : RestoreReport) (domain : String) :
    Except OverrideError Bool → RestoreReport
  | .ok true => { report with restored := report.restored ++ [domain] }
  | .ok false => report
  | .error e => { report with failed := report.failed ++ [(domain, e)] }

theorem guarantees_restoreNext {config : Config} {domain : String} {report : RestoreReport}
    (htable : config.idScheme = .table) (hquiet : regime.Quiet) (hanswered : ¬ regime.hangs)
    {post : RestoreReport → World → Prop}
    (hend : ∀ result after, RestoreOutcome regime config domain w result after →
      post (report.next domain result) after) :
    Guarantees regime halted (restoreNext config report domain) w post := by
  rw [restoreNext, guarantees_bind]
  refine guarantees_restoreDomain htable hquiet hanswered fun result after h => ?_
  match result with
  | .ok true => exact hend _ after h
  | .ok false => exact hend _ after h
  | .error e =>
    simp only
    rw [guarantees_bind]
    exact guarantees_warn fun last hlast => hend _ last (h.then_stays hlast)

/-! ## One stray domain -/

/-- How the removal of the rules of a domain ends. -/
inductive ClearOutcome (regime : Regime) (domain : String) (w : World) :
    Except OverrideError Bool → World → Prop where
  | skipped {after : World} :
      w.state.overrideIds.get? domain = none ∨ w.state.isExempted domain = true →
      w.Stays after → ClearOutcome regime domain w (.ok false) after
  | failed (e : OverrideError) {after : World} : regime.Disturbs → w.Stays after →
      ClearOutcome regime domain w (.error e) after
  | done {ids : IdPair} {after : World} : w.state.overrideIds.get? domain = some ids →
      w.state.isExempted domain = false →
      w.Becomes (w.engine.removeRules ids.toList) w.state after →
      ClearOutcome regime domain w (.ok true) after

/-- The rulesets are left alone. -/
theorem ClearOutcome.rulesets {domain : String} {result : Except OverrideError Bool}
    {after : World} (h : ClearOutcome regime domain w result after) :
    after.engine.rulesets = w.engine.rulesets := by
  cases h with
  | skipped _ hafter => rw [hafter.engine]
  | failed _ _ hafter => rw [hafter.engine]
  | done _ _ hafter =>
    rw [hafter.engine]
    rfl

theorem guarantees_clearDomain {domain : String} (hquiet : regime.Quiet)
    (hanswered : ¬ regime.hangs) {post : Except OverrideError Bool → World → Prop}
    (hend : ∀ result after, ClearOutcome regime domain w result after → post result after) :
    Guarantees regime halted (clearDomain domain).run w post := by
  unfold clearDomain
  rw [guarantees_attempt_bind]
  refine guarantees_loadState hquiet ?_ ?_ fun _ hhangs => absurd hhangs hanswered
  · intro read hread
    simp only
    cases hknown : w.state.overrideIds.get? domain with
    | none => exact hend _ read (.skipped (.inl hknown) hread)
    | some ids =>
      simp only
      cases hexempted : w.state.isExempted domain with
      | true => exact hend _ read (.skipped (.inr hexempted) hread)
      | false =>
        simp only [Bool.false_eq_true, if_false]
        rw [guarantees_attempt_bind, guarantees_onEngine]
        refine guarantees_removeRules ?_ ?_ fun _ hhangs => absurd hhangs hanswered
        · intro after hafter _
          rw [hread.engine, hread.state] at hafter
          exact hend _ after (.done hknown hexempted (hread.trans hafter))
        · intro e after hfails hafter _
          exact hend _ after (.failed _ (.inl hfails) (hread.then_stays hafter))
  · intro e after hdisturbs hafter _
    exact hend _ after (.failed e hdisturbs hafter)

/-- The report after the removal of the rules of a stray domain. -/
def RestoreReport.nextStray (report : RestoreReport) (domain : String)
    (result : Except OverrideError Bool) : RestoreReport :=
  { report with
    removed := match result with
      | .ok true => report.removed ++ [domain]
      | _ => report.removed }

theorem guarantees_clearNext {domain : String} {report : RestoreReport} (hquiet : regime.Quiet)
    (hanswered : ¬ regime.hangs) {post : RestoreReport → World → Prop}
    (hend : ∀ result after, ClearOutcome regime domain w result after →
      post (report.nextStray domain result) after) :
    Guarantees regime halted (clearNext report domain) w post := by
  rw [clearNext, guarantees_bind]
  refine guarantees_clearDomain hquiet hanswered fun result after h => ?_
  match result with
  | .ok true => exact hend _ after h
  | .ok false => exact hend _ after h
  | .error e =>
    simp only
    rw [guarantees_bind]
    -- The warning changes nothing but the log.
    refine guarantees_warn fun last hlast => hend (.error e) last ?_
    cases h with
    | failed _ hdisturbs hafter => exact .failed e hdisturbs (hafter.then_stays hlast)

/-! ## The ruleset -/

/-- How the reconciliation of the ruleset ends. -/
inductive ReconcileOutcome (regime : Regime) (config : Config) (enabled : Bool) (w : World) :
    Except OverrideError Bool → World → Prop where
  | agreed {after : World} : w.engine.isEnabled config.rulesetId = enabled → w.Stays after →
      ReconcileOutcome regime config enabled w (.ok false) after
  | failed (e : OverrideError) {after : World} :
      regime.Disturbs ∨ ¬ w.engine.rulesets.contains config.rulesetId → w.Stays after →
      ReconcileOutcome regime config enabled w (.error e) after
  | done {after : World} :
      w.Becomes (switched w.engine config.rulesetId enabled) w.state after →
      ReconcileOutcome regime config enabled w (.ok true) after

/-- What ends like this from a world that stayed ends like this from the world before. -/
theorem ReconcileOutcome.of_stays {config : Config} {enabled : Bool}
    {result : Except OverrideError Bool} {read after : World}
    (h : ReconcileOutcome regime config enabled read result after) (hread : w.Stays read) :
    ReconcileOutcome regime config enabled w result after := by
  have hengine : read.engine = w.engine := hread.engine
  cases h with
  | agreed hagreed hafter => exact .agreed (hengine ▸ hagreed) (hread.then_stays hafter)
  | failed e hcause hafter => exact .failed e (hengine ▸ hcause) (hread.then_stays hafter)
  | done hafter =>
    rw [hread.engine, hread.state] at hafter
    exact .done (hread.trans hafter)

theorem guarantees_reconcileRuleset {config : Config} {enabled : Bool}
    (hanswered : ¬ regime.hangs) {post : Except OverrideError Bool → World → Prop}
    (hend : ∀ result after, ReconcileOutcome regime config enabled w result after →
      post result after) :
    Guarantees regime halted (reconcileRuleset config enabled).run w post := by
  unfold reconcileRuleset
  rw [guarantees_attempt_bind, guarantees_onEngine]
  refine guarantees_enabledRulesets ?_ ?_ fun _ hhangs => absurd hhangs hanswered
  · intro read hread
    simp only [mapError_ok, Engine.contains_enabledRulesets]
    by_cases hagreed : w.engine.isEnabled config.rulesetId = enabled
    · rw [if_pos (by simp [hagreed])]
      exact hend _ read (.agreed hagreed hread)
    · rw [if_neg (by simp [hagreed]), guarantees_attempt_bind, guarantees_onEngine]
      refine guarantees_setRuleset ?_ ?_ fun _ hhangs => absurd hhangs hanswered
      · intro after _ hafter
        rw [hread.engine, hread.state] at hafter
        simp only [mapError_ok]
        rw [guarantees_attempt_bind, guarantees_attempt_lift]
        exact guarantees_warn fun last hlast =>
          hend _ last (.done ((hread.trans hafter).then_stays hlast))
      · intro e after hfailed hafter _
        rw [hread.engine] at hfailed
        exact hend _ after (.failed _ (hfailed.imp_left .inl) (hread.then_stays hafter))
  · intro e after hfails hafter _
    exact hend _ after (.failed _ (.inl (.inl hfails)) hafter)

/-! ## The whole -/

/-- The stray domains are those of the table that are not exempted. -/
theorem mem_strayDomains {state : PersistedState} {domain : String} :
    domain ∈ strayDomains state
      ↔ (∃ ids, state.overrideIds.get? domain = some ids) ∧ state.isExempted domain = false := by
  rw [strayDomains, List.mem_filter, IdTable.mem_domains, Bool.not_eq_true']

theorem pairwise_strayDomains (state : PersistedState) :
    (strayDomains state).Pairwise (· < ·) :=
  state.overrideIds.pairwise_domains.filter _

theorem nodup_strayDomains (state : PersistedState) : (strayDomains state).Nodup :=
  (pairwise_strayDomains state).imp fun {a b} (h : a < b) => by
    rintro rfl
    exact String.lt_irrefl a h

/-- A restoration guarantees what its two passes keep: `first` while the exempted domains are
restored, `second` while the stray ones are cleared. Both are told which domains are left. -/
theorem guarantees_restoreAll {config : Config} (htable : config.idScheme = .table)
    (hquiet : regime.Quiet) (hanswered : ¬ regime.hangs)
    (first second : List String → RestoreReport → World → Prop)
    {post : Except OverrideError RestoreReport → World → Prop}
    (hfailed : ∀ e after, regime.Disturbs ∨ ¬ w.engine.rulesets.contains config.rulesetId →
      w.Stays after → post (.error e) after)
    (hstart : ∀ reconciled after,
      ReconcileOutcome regime config w.state.enabled w (.ok reconciled) after →
      first w.state.exemptedDomains ⟨[], [], [], reconciled⟩ after)
    (hfirst : ∀ domain rest report u result v, first (domain :: rest) report u →
      RestoreOutcome regime config domain u result v → first rest (report.next domain result) v)
    (hturn : ∀ report u, first [] report u → second (strayDomains w.state) report u)
    (hsecond : ∀ domain rest report u result v, second (domain :: rest) report u →
      ClearOutcome regime domain u result v → second rest (report.nextStray domain result) v)
    (hend : ∀ report after, second [] report after → post (.ok report) after) :
    Guarantees regime halted (restoreAll config).run w post := by
  unfold restoreAll
  rw [guarantees_attempt_bind]
  refine guarantees_loadState hquiet ?_ ?_ fun _ hhangs => absurd hhangs hanswered
  · intro read hread
    simp only
    rw [guarantees_attempt_bind]
    refine guarantees_reconcileRuleset hanswered fun result after h => ?_
    have h := h.of_stays hread
    cases result with
    | error e =>
      cases h with
      | failed _ hcause hafter => exact hfailed e after hcause hafter
    | ok reconciled =>
      simp only
      rw [guarantees_attempt_bind]
      -- First the exempted domains are restored.
      refine (guarantees_attempt_lift _ _ _).2
        (Guarantees.imp (guarantees_foldlM first ?_ _ _ _ ?_) ?_)
      · intro domain rest report u hu
        exact guarantees_restoreNext htable hquiet hanswered fun result v hv =>
          hfirst domain rest report u result v hu hv
      · exact hstart reconciled after h
      · -- Then the stray ones are cleared, as they were when the state was read.
        intro report between hbetween
        simp only
        refine (guarantees_attempt_lift _ _ _).2
          (Guarantees.imp (guarantees_foldlM second ?_ _ _ _ ?_) ?_)
        · intro domain rest report u hu
          exact guarantees_clearNext hquiet hanswered fun result v hv =>
            hsecond domain rest report u result v hu hv
        · exact hturn report between hbetween
        · exact hend
  · intro e after hdisturbs hafter _
    exact hfailed e after (.inl hdisturbs) hafter

end Blocklist.Override
