import Blocklist.Proofs.Install

set_option autoImplicit false

/-! # How a toggle can end

Every way in which exempting and blocking a domain can end, with what is in the engine and in the
state then (`ExemptOutcome`, `UnexemptOutcome`), and where each can hang (`ExemptHalt`,
`UnexemptHalt`). What is said about toggles elsewhere is read off these cases. -/

namespace Blocklist.Override

variable {regime : Regime} {halted : World → Prop} {w : World}

/-! ## Compensations -/

/-- An uncommitted pair is withdrawn, or it stays. -/
theorem guarantees_withdrawPair {domain : String} {ids : IdPair} {post : Unit → World → Prop}
    (hok : ∀ after, w.Becomes (w.engine.removeRules ids.toList) w.state after → post () after)
    (herror : ∀ e after, w.Stays after →
      w.Notes ⟨.removeRules ids.toList, some (.error e)⟩ after → post () after)
    (hhalted : ∀ after, regime.hangs → w.Stays after → halted after) :
    Guarantees regime halted (withdrawPair domain ids) w post := by
  rw [withdrawPair, guarantees_bind]
  refine guarantees_removeRules ?_ ?_ hhalted
  · intro removed hremoved _
    refine guarantees_warn fun after hafter => ?_
    exact hok after (hremoved.then_stays hafter)
  · intro e removed _ hremoved hrefused
    refine guarantees_warn fun after hafter => ?_
    exact herror e after (hremoved.then_stays hafter) (hrefused.becomes hafter)

/-- An exemption is dropped, or it stays. -/
theorem guarantees_dropExemption (hquiet : regime.Quiet) {domain : String}
    {post : Unit → World → Prop}
    (hok : ∀ now after, w.Becomes w.engine ((w.state.removeExemption domain).touch now) after →
      post () after)
    (herror : ∀ after, regime.Disturbs → w.Stays after → w.FailsOnStore after → post () after)
    (hhalted : ∀ after, regime.hangs → w.Stays after → halted after) :
    Guarantees regime halted (dropExemption domain) w post := by
  rw [dropExemption, guarantees_bind]
  refine guarantees_update hquiet ?_ ?_ hhalted
  · intro _ now dropped hdropped
    refine guarantees_warn fun after hafter => ?_
    exact hok now after (hdropped.then_stays hafter)
  · intro e kept hdisturbs hkept hfailed
    simp only
    rw [guarantees_bind]
    refine guarantees_warn fun warned hwarned => guarantees_warn fun after hafter => ?_
    have hstays := hkept.then_stays (hwarned.then_stays hafter)
    exact herror after hdisturbs hstays (hfailed.becomes (hwarned.then_stays hafter))

/-! ## Exempting -/

/-- How an exemption ends that has got the ids `ids` and `stale`, with the state then being
`state`. -/
inductive GrantedOutcome (regime : Regime) (config : Config) (domain : String) (w : World)
    (ids : IdPair) (stale : Option IdPair) (state : PersistedState) :
    Except OverrideError Transition → World → Prop where
  /-- The engine was not touched. -/
  | untouched (e : OverrideError) {after : World} : regime.Disturbs →
      w.Becomes w.engine state after → after.Failed →
      GrantedOutcome regime config domain w ids stale state (.error e) after
  /-- The pair is not there, and the domain was not exempted. -/
  | cleared {e : EngineError} {after : World} :
      regime.fails ∨ Refused config domain ids stale w.engine e →
      w.Becomes (w.engine.removeRules (clearedIds ids stale)) state after →
      w.state.isExempted domain = false →
      GrantedOutcome regime config domain w ids stale state (.error (.engine e)) after
  /-- The pair of an exempted domain is gone, and so is the exemption. -/
  | dropped {e : EngineError} (now : UInt64) {after : World} :
      regime.fails ∨ Refused config domain ids stale w.engine e →
      w.Becomes (w.engine.removeRules (clearedIds ids stale))
        ((state.removeExemption domain).touch now) after →
      w.state.isExempted domain = true →
      after.Made [⟨.addRules (pairRules config domain ids), some (.error e)⟩,
        ⟨.removeRules (clearedIds ids stale), some (.ok ())⟩] →
      GrantedOutcome regime config domain w ids stale state (.error (.engine e)) after
  /-- The pair of an exempted domain is gone, and the exemption could not be dropped: the store
  failed after the engine had refused the pair. -/
  | undropped {e : EngineError} {x : Exchange} {after : World} : regime.Disturbs →
      w.Becomes (w.engine.removeRules (clearedIds ids stale)) state after →
      w.state.isExempted domain = true →
      x.onStore = true → x.failed = true →
      after.Made [x, ⟨.addRules (pairRules config domain ids), some (.error e)⟩,
        ⟨.removeRules (clearedIds ids stale), some (.ok ())⟩] →
      GrantedOutcome regime config domain w ids stale state (.error (.engine e)) after
  /-- The pair of an exempted domain is there; only the time of the change is missing. -/
  | kept (e : OverrideError) {engine : Engine} {after : World} : regime.Disturbs →
      Installed config domain ids stale w.engine engine → w.Becomes engine state after →
      w.state.isExempted domain = true →
      GrantedOutcome regime config domain w ids stale state (.error e) after
  /-- The pair was installed, not committed and withdrawn. -/
  | withdrawn (e : OverrideError) {engine : Engine} {after : World} : regime.Disturbs →
      Installed config domain ids stale w.engine engine →
      w.Becomes (engine.removeRules ids.toList) state after →
      w.state.isExempted domain = false →
      GrantedOutcome regime config domain w ids stale state (.error e) after
  /-- The pair was installed, not committed and could not be withdrawn: the removal failed after
  the store had failed, and that after the pair was added. -/
  | stranded (e : OverrideError) (refusal : EngineError) {x : Exchange} {engine : Engine}
      {after : World} :
      regime.Disturbs → Installed config domain ids stale w.engine engine →
      w.Becomes engine state after → w.state.isExempted domain = false →
      x.onStore = true → x.failed = true →
      after.Made [⟨.removeRules ids.toList, some (.error refusal)⟩, x,
        ⟨.addRules (pairRules config domain ids), some (.ok ())⟩] →
      GrantedOutcome regime config domain w ids stale state (.error e) after
  /-- The domain is exempted. -/
  | done (now : UInt64) {engine : Engine} {after : World} :
      Installed config domain ids stale w.engine engine →
      w.Becomes engine ((state.addExemption domain).touch now) after →
      GrantedOutcome regime config domain w ids stale state
        (.ok ⟨domain, .of (w.state.isExempted domain), .exempted, some ids⟩) after

/-- How an exemption ends. -/
inductive ExemptOutcome (regime : Regime) (config : Config) (domain : String) (w : World) :
    Except OverrideError Transition → World → Prop where
  | refused {e : IdError} {after : World} : w.state.overrideIds.get? domain = none →
      allocation config w.state.overrideIds domain = .error e → w.Stays after →
      ExemptOutcome regime config domain w (.error (.ids e)) after
  | failed (e : OverrideError) {after : World} : regime.Disturbs → w.Stays after →
      ExemptOutcome regime config domain w (.error e) after
  | granted {ids : IdPair} {stale : Option IdPair} {state : PersistedState}
      {result : Except OverrideError Transition} {after : World} :
      Granted config domain w.state ids stale state →
      GrantedOutcome regime config domain w ids stale state result after →
      ExemptOutcome regime config domain w result after

/-- Where an exemption can hang that has got the ids `ids` and `stale`, with the state then being
`state`. -/
inductive GrantedHalt (config : Config) (domain : String) (w : World) (ids : IdPair)
    (stale : Option IdPair) (state : PersistedState) : World → Prop where
  | granted {after : World} : w.Becomes w.engine state after →
      GrantedHalt config domain w ids stale state after
  | cleared {after : World} :
      w.Becomes (w.engine.removeRules (clearedIds ids stale)) state after →
      GrantedHalt config domain w ids stale state after
  | installed {engine : Engine} {after : World} :
      Installed config domain ids stale w.engine engine → w.Becomes engine state after →
      GrantedHalt config domain w ids stale state after

/-- Where an exemption can hang. -/
inductive ExemptHalt (config : Config) (domain : String) (w : World) : World → Prop where
  | before {after : World} : w.Stays after → ExemptHalt config domain w after
  | granted {ids : IdPair} {stale : Option IdPair} {state : PersistedState} {after : World} :
      Granted config domain w.state ids stale state →
      GrantedHalt config domain w ids stale state after → ExemptHalt config domain w after

/-- Without failures a domain gets no pair or is exempted. -/
theorem ExemptOutcome.of_calm {config : Config} {domain : String}
    {result : Except OverrideError Transition} {after : World} (hw : w.state.overrideIds.WellFormed)
    (h : ExemptOutcome .calm config domain w result after) :
    (∃ e, result = .error (.ids e) ∧ w.Stays after)
      ∨ (∃ t ids stale state engine now, result = .ok t
          ∧ Granted config domain w.state ids stale state
          ∧ Installed config domain ids stale w.engine engine
          ∧ w.Becomes engine ((state.addExemption domain).touch now) after) := by
  cases h with
  | refused _ _ hafter => exact Or.inl ⟨_, rfl, hafter⟩
  | failed _ hdisturbs _ => exact absurd hdisturbs Regime.not_disturbs_calm
  | @granted ids stale _ _ _ hgranted hend =>
    obtain ⟨engine, hinstalled⟩ :=
      exists_installed config domain (hgranted.proper hw) stale w.engine
    cases hend with
    | untouched _ hdisturbs _ _ => exact absurd hdisturbs Regime.not_disturbs_calm
    | cleared hfailed _ _ =>
      exact hfailed.elim False.elim fun h => absurd hinstalled (h.not_installed engine)
    | dropped _ hfailed _ _ _ =>
      exact hfailed.elim False.elim fun h => absurd hinstalled (h.not_installed engine)
    | undropped hdisturbs _ _ _ _ _ => exact absurd hdisturbs Regime.not_disturbs_calm
    | kept _ hdisturbs _ _ _ => exact absurd hdisturbs Regime.not_disturbs_calm
    | withdrawn _ hdisturbs _ _ _ => exact absurd hdisturbs Regime.not_disturbs_calm
    | stranded _ _ hdisturbs _ _ _ _ _ _ => exact absurd hdisturbs Regime.not_disturbs_calm
    | done now hinstalled hafter =>
      exact Or.inr ⟨_, _, _, _, _, now, rfl, hgranted, hinstalled, hafter⟩

/-- What exempting a domain does once its pair has been installed, or has not. -/
def settleExempted (domain : String) (ids : IdPair) (wasExempted : Bool) :
    Except InstallFailure Unit → Attempt Transition
  | .error failure => do
    if let .pairRemoved _ := failure then
      if wasExempted then dropExemption domain
    throw (.engine failure.error)
  | .ok () => do
    match ← outcome (update (·.addExemption domain)) with
    | .error e =>
      if !wasExempted then withdrawPair domain ids
      throw e
    | .ok _ => return ⟨domain, .of wasExempted, .exempted, some ids⟩

section

variable {config : Config} {domain : String} {ids : IdPair} {stale : Option IdPair}
  {state : PersistedState} {post : Except OverrideError Transition → World → Prop}

/-- The pair has been installed: the exemption is committed, or the pair of a domain that was not
exempted is withdrawn. -/
theorem guarantees_settleExempted_installed {engine : Engine} {installed : World}
    (hquiet : regime.Quiet) (hinstalled : Installed config domain ids stale w.engine engine)
    (hafter : w.Becomes engine state installed)
    (hadded : installed.Made [⟨.addRules (pairRules config domain ids), some (.ok ())⟩])
    (hend : ∀ result after, GrantedOutcome regime config domain w ids stale state result after →
      post result after)
    (hhalted : ∀ after, regime.hangs → w.Becomes engine state after → halted after) :
    Guarantees regime halted (settleExempted domain ids (w.state.isExempted domain) (.ok ())).run
      installed post := by
  rw [settleExempted, guarantees_attempt_bind, guarantees_outcome]
  refine guarantees_update hquiet ?_ ?_ ?_
  · intro _ now last hlast
    rw [hafter.engine, hafter.state] at hlast
    exact hend _ last (.done now hinstalled (hafter.trans hlast))
  · intro e last hdisturbs hlast hfailed
    have hkept := hafter.then_stays hlast
    obtain ⟨x, hstore, hfailed, hnotes⟩ := hfailed
    simp only
    cases hexempted : w.state.isExempted domain with
    | true => exact hend _ last (.kept e hdisturbs hinstalled hkept hexempted)
    | false =>
      -- Nothing in the state tells of the pair, so it has to go again.
      simp only [Bool.not_false, if_true]
      rw [guarantees_attempt_bind, guarantees_attempt_lift]
      refine guarantees_withdrawPair ?_ ?_ ?_
      · intro final hfinal
        rw [hkept.engine, hkept.state] at hfinal
        exact hend _ final (.withdrawn e hdisturbs hinstalled (hkept.trans hfinal) hexempted)
      · intro refusal final hfinal hrefused
        exact hend _ final (.stranded e refusal hdisturbs hinstalled (hkept.then_stays hfinal)
          hexempted hstore hfailed (hrefused.made_cons (hnotes.made_cons hadded)))
      · intro final hhangs hfinal
        exact hhalted final hhangs (hkept.then_stays hfinal)
  · intro last hhangs hlast
    exact hhalted last hhangs (hafter.then_stays hlast)

/-- The old pair is gone and the new one is not there: a domain that was exempted is no longer. -/
theorem guarantees_settleExempted_removed {e : EngineError} {removed : World}
    (hquiet : regime.Quiet)
    (hfailed : regime.fails ∨ Refused config domain ids stale w.engine e)
    (hafter : w.Becomes (w.engine.removeRules (clearedIds ids stale)) state removed)
    (hrefused : removed.Made [⟨.addRules (pairRules config domain ids), some (.error e)⟩,
      ⟨.removeRules (clearedIds ids stale), some (.ok ())⟩])
    (hend : ∀ result after, GrantedOutcome regime config domain w ids stale state result after →
      post result after)
    (hhalted : ∀ after, regime.hangs →
      w.Becomes (w.engine.removeRules (clearedIds ids stale)) state after → halted after) :
    Guarantees regime halted
      (settleExempted domain ids (w.state.isExempted domain) (.error (.pairRemoved e))).run removed
      post := by
  rw [settleExempted]
  simp only
  cases hexempted : w.state.isExempted domain with
  | false => exact hend _ removed (.cleared hfailed hafter hexempted)
  | true =>
    simp only [if_true]
    rw [guarantees_attempt_bind, guarantees_attempt_lift]
    refine guarantees_dropExemption hquiet ?_ ?_ ?_
    · intro now last hlast
      rw [hafter.engine, hafter.state] at hlast
      exact hend _ last (.dropped now hfailed (hafter.trans hlast) hexempted
        (hrefused.becomes hlast))
    · intro last hdisturbs hlast hfails
      obtain ⟨x, hstore, hfailed, hnotes⟩ := hfails
      exact hend _ last (.undropped hdisturbs (hafter.then_stays hlast) hexempted hstore hfailed
        (hnotes.made_cons hrefused))
    · intro last hhangs hlast
      exact hhalted last hhangs (hafter.then_stays hlast)

end

/-- What exempting a domain does once it has its ids, whichever scheme they come from. -/
def exemptWith (config : Config) (domain : String) (ids : IdPair) (stale : Option IdPair) :
    Attempt Transition := do
  let wasExempted := (← loadState).isExempted domain
  settleExempted domain ids wasExempted (← installPair config domain ids stale)

theorem guarantees_exemptWith {config : Config} {domain : String} {ids : IdPair}
    {stale : Option IdPair} {state : PersistedState} {granted : World} (hquiet : regime.Quiet)
    (hexempted : state.isExempted domain = w.state.isExempted domain)
    (hbecomes : w.Becomes w.engine state granted)
    {post : Except OverrideError Transition → World → Prop}
    (hend : ∀ result after, GrantedOutcome regime config domain w ids stale state result after →
      post result after)
    (hhalted : ∀ after, regime.hangs → GrantedHalt config domain w ids stale state after →
      halted after) :
    Guarantees regime halted (exemptWith config domain ids stale).run granted post := by
  rw [exemptWith, guarantees_attempt_bind]
  refine guarantees_loadState hquiet ?_ ?_ ?_
  · intro read hread
    -- The grant has not exempted the domain, so what is read here was so at the start.
    have hwas : granted.state.isExempted domain = w.state.isExempted domain := by
      rw [hbecomes.state, hexempted]
    have hread := hbecomes.then_stays hread
    simp only [hwas]
    rw [guarantees_attempt_bind, guarantees_attempt_lift]
    refine guarantees_installPair ?_ ?_ ?_ ?_
    · intro engine installed hinstalled hafter hadded
      rw [hread.engine] at hinstalled
      rw [hread.state] at hafter
      exact guarantees_settleExempted_installed hquiet hinstalled (hread.trans hafter) hadded
        hend fun after hhangs h => hhalted after hhangs (.installed hinstalled h)
    · intro e after hfails hafter hfailed
      exact hend _ after (.untouched _ (.inl hfails) (hread.then_stays hafter) hfailed)
    · intro e removed hfailed hafter hrefused
      rw [hread.engine] at hfailed hafter
      rw [hread.state] at hafter
      exact guarantees_settleExempted_removed hquiet hfailed (hread.trans hafter) hrefused hend
        fun after hhangs h => hhalted after hhangs (.cleared h)
    · intro after hhangs hafter
      rcases hafter with hafter | hafter
      · exact hhalted after hhangs (.granted (hread.then_stays hafter))
      · rw [hread.engine, hread.state] at hafter
        exact hhalted after hhangs (.cleared (hread.trans hafter))
  · intro e after hdisturbs hafter hfailed
    exact hend _ after (.untouched e hdisturbs (hbecomes.then_stays hafter) hfailed.failed)
  · intro after hhangs hafter
    exact hhalted after hhangs (.granted (hbecomes.then_stays hafter))

/-- Exempting a domain gets its ids first. -/
theorem exempt_eq (config : Config) (domain : String) :
    exempt config domain = (idsForInstall config domain >>= fun (ids, stale) =>
      exemptWith config domain ids stale) := rfl

theorem guarantees_exempt {config : Config} {domain : String} (htable : config.idScheme = .table)
    (hquiet : regime.Quiet) {post : Except OverrideError Transition → World → Prop}
    (hend : ∀ result after, ExemptOutcome regime config domain w result after → post result after)
    (hhalted : ∀ after, regime.hangs → ExemptHalt config domain w after → halted after) :
    Guarantees regime halted (exempt config domain).run w post := by
  rw [exempt_eq, guarantees_attempt_bind]
  refine guarantees_idsForInstall htable hquiet ?_ ?_ ?_ ?_
  · intro ids stale state granted hgranted hbecomes
    exact guarantees_exemptWith hquiet (hgranted.isExempted domain) hbecomes
      (fun result after h => hend result after (.granted hgranted h))
      fun after hhangs h => hhalted after hhangs (.granted hgranted h)
  · intro e after hnew hallocation hafter
    exact hend _ after (.refused hnew hallocation hafter)
  · intro e after hdisturbs hafter _
    exact hend _ after (.failed e hdisturbs hafter)
  · intro after hhangs hafter
    exact hhalted after hhangs (.before hafter)

/-! ## Blocking again -/

/-- The ids that blocking a domain clears: its pair, or its hashed ids if it was exempted without
one. -/
def touchedIds (state : PersistedState) (domain : String) : Option IdPair :=
  (state.overrideIds.get? domain).or (staleIds state domain)

theorem touchedIds_of_get?_eq_some {state : PersistedState} {domain : String} {ids : IdPair}
    (h : state.overrideIds.get? domain = some ids) : touchedIds state domain = some ids := by
  rw [touchedIds, h]
  rfl

theorem touchedIds_of_get?_eq_none {state : PersistedState} {domain : String}
    (h : state.overrideIds.get? domain = none) :
    touchedIds state domain = staleIds state domain := by
  rw [touchedIds, h]
  rfl

theorem touchedIds_of_legacy {state : PersistedState} {domain : String} (h : Legacy state domain) :
    touchedIds state domain = some (.hashed domain) := by
  rw [touchedIds_of_get?_eq_none h.2, staleIds, if_pos h.1]

/-- The engine without the rules at the ids that blocking a domain clears. -/
def blocked (engine : Engine) (state : PersistedState) (domain : String) : Engine :=
  engine.removeRules ((touchedIds state domain).elim [] IdPair.toList)

theorem blocked_of_touchedIds_eq_some {engine : Engine} {state : PersistedState} {domain : String}
    {ids : IdPair} (h : touchedIds state domain = some ids) :
    blocked engine state domain = engine.removeRules ids.toList := by
  rw [blocked, h]
  rfl

theorem blocked_of_touchedIds_eq_none {engine : Engine} {state : PersistedState} {domain : String}
    (h : touchedIds state domain = none) : blocked engine state domain = engine := by
  rw [blocked, h]
  rfl

/-- The same under either scheme: the ids that the domain has already, or its hashed ids if it was
exempted without any. -/
def blockedIds (config : Config) (state : PersistedState) (domain : String) : Option IdPair :=
  (knownIds? config state domain).or (staleIds state domain)

theorem blockedIds_of_table {config : Config} (htable : config.idScheme = .table)
    (state : PersistedState) (domain : String) :
    blockedIds config state domain = touchedIds state domain := by
  rw [blockedIds, knownIds?, htable]
  rfl

/-- There are always ids to clear for a domain that is exempted. -/
theorem exists_blockedIds (config : Config) {state : PersistedState} {domain : String}
    (hexempted : state.isExempted domain = true) :
    ∃ ids, blockedIds config state domain = some ids := by
  rw [blockedIds, staleIds, if_pos hexempted]
  cases knownIds? config state domain with
  | some ids => exact ⟨ids, rfl⟩
  | none => exact ⟨_, rfl⟩

/-- How blocking a domain ends that clears the ids `cleared`. -/
inductive UnexemptOutcome (regime : Regime) (config : Config) (domain : String) (w : World)
    (cleared : Option IdPair) : Except OverrideError Transition → World → Prop where
  /-- Nothing was touched. -/
  | failed (e : OverrideError) {after : World} : regime.Disturbs → w.Stays after → after.Failed →
      UnexemptOutcome regime config domain w cleared (.error e) after
  /-- The ids of a domain that was not exempted were cleared. -/
  | uncommitted (e : OverrideError) {after : World} : regime.Disturbs →
      w.Becomes (w.engine.removeRules (cleared.elim [] IdPair.toList)) w.state after →
      w.state.isExempted domain = false →
      UnexemptOutcome regime config domain w cleared (.error e) after
  /-- The rules of an exempted domain were removed and added again. -/
  | reinstated (e : OverrideError) {ids : IdPair} {engine : Engine} {after : World} :
      regime.Disturbs → cleared = some ids →
      Installed config domain ids none w.engine engine → w.Becomes engine w.state after →
      w.state.isExempted domain = true →
      UnexemptOutcome regime config domain w cleared (.error e) after
  /-- The rules of an exempted domain were removed and could not be added again: that failed after
  the store had failed, and that after the removal. -/
  | lost (e : OverrideError) (refusal : EngineError) {ids : IdPair} {x : Exchange}
      {after : World} : regime.Disturbs → cleared = some ids →
      w.Becomes (w.engine.removeRules (cleared.elim [] IdPair.toList)) w.state after →
      w.state.isExempted domain = true →
      x.onStore = true → x.failed = true →
      after.Made [⟨.addRules (pairRules config domain ids), some (.error refusal)⟩, x,
        ⟨.removeRules ids.toList, some (.ok ())⟩] →
      UnexemptOutcome regime config domain w cleared (.error e) after
  /-- The domain is blocked. -/
  | done (now : UInt64) {after : World} :
      w.Becomes (w.engine.removeRules (cleared.elim [] IdPair.toList))
        ((w.state.removeExemption domain).touch now) after →
      UnexemptOutcome regime config domain w cleared
        (.ok ⟨domain, .of (w.state.isExempted domain), .blocked, cleared⟩) after

/-- Without failures a domain is blocked. -/
theorem UnexemptOutcome.of_calm {config : Config} {domain : String} {cleared : Option IdPair}
    {result : Except OverrideError Transition} {after : World}
    (h : UnexemptOutcome .calm config domain w cleared result after) :
    ∃ now, result = .ok ⟨domain, .of (w.state.isExempted domain), .blocked, cleared⟩
      ∧ w.Becomes (w.engine.removeRules (cleared.elim [] IdPair.toList))
          ((w.state.removeExemption domain).touch now) after := by
  cases h with
  | failed _ hdisturbs _ _ => exact absurd hdisturbs Regime.not_disturbs_calm
  | uncommitted _ hdisturbs _ _ => exact absurd hdisturbs Regime.not_disturbs_calm
  | reinstated _ hdisturbs _ _ _ _ => exact absurd hdisturbs Regime.not_disturbs_calm
  | lost _ _ hdisturbs _ _ _ _ _ _ => exact absurd hdisturbs Regime.not_disturbs_calm
  | done now hafter => exact ⟨now, rfl, hafter⟩

/-- Where blocking a domain can hang that clears the ids `cleared`. -/
inductive UnexemptHalt (w : World) (cleared : Option IdPair) : World → Prop where
  | before {after : World} : w.Stays after → UnexemptHalt w cleared after
  | removed {after : World} :
      w.Becomes (w.engine.removeRules (cleared.elim [] IdPair.toList)) w.state after →
      UnexemptHalt w cleared after

/-- What blocking a domain does after it has removed the rules. -/
def commitBlocked (config : Config) (domain : String) (wasExempted : Bool) (ids : Option IdPair) :
    Attempt Transition := do
  match ← outcome (update (·.removeExemption domain)) with
  | .ok _ => return ⟨domain, .of wasExempted, .blocked, ids⟩
  | .error e =>
    if let (true, some ids) := (wasExempted, ids) then
      if let .error e ← addRules (pairRules config domain ids) then
        warn (.notReinstated domain e)
    throw e

theorem guarantees_commitBlocked {config : Config} {domain : String} {cleared : Option IdPair}
    {removed : World} (hquiet : regime.Quiet)
    (hids : w.state.isExempted domain = true → ∃ ids, cleared = some ids)
    (hremoved : w.Becomes (w.engine.removeRules (cleared.elim [] IdPair.toList)) w.state removed)
    (hcleared : ∀ ids, cleared = some ids →
      removed.Made [⟨.removeRules ids.toList, some (.ok ())⟩])
    {post : Except OverrideError Transition → World → Prop}
    (hend : ∀ result after, UnexemptOutcome regime config domain w cleared result after →
      post result after)
    (hhalted : ∀ after, regime.hangs → UnexemptHalt w cleared after → halted after) :
    Guarantees regime halted
      (commitBlocked config domain (w.state.isExempted domain) cleared).run removed post := by
  rw [commitBlocked, guarantees_attempt_bind, guarantees_outcome]
  refine guarantees_update hquiet ?_ ?_ ?_
  · intro _ now after hafter
    rw [hremoved.engine, hremoved.state] at hafter
    exact hend _ after (.done now (hremoved.trans hafter))
  · intro e after hdisturbs hafter hfails
    have hafter := hremoved.then_stays hafter
    obtain ⟨x, hstore, hfailed, hnotes⟩ := hfails
    simp only
    cases hexempted : w.state.isExempted domain with
    | false => exact hend _ after (.uncommitted e hdisturbs hafter hexempted)
    | true =>
      obtain ⟨ids, rfl⟩ := hids hexempted
      simp only
      rw [guarantees_attempt_bind, guarantees_attempt_lift]
      refine guarantees_addRules ?_ ?_ ?_
      · -- The rules go back to the ids that were cleared, which makes it an installation.
        intro engine last hadd hlast _
        rw [hafter.engine] at hadd
        rw [hafter.state] at hlast
        have hinstalled : Installed config domain ids none w.engine engine := by
          rw [Installed, clearedIds_none]
          exact hadd
        exact hend _ last (.reinstated e hdisturbs rfl hinstalled (hafter.trans hlast) hexempted)
      · intro refusal last _ hlast hrefused
        simp only
        rw [guarantees_attempt_bind, guarantees_attempt_lift]
        refine guarantees_warn fun final hfinal => ?_
        have hlost := hrefused.made_cons (hnotes.made_cons (hcleared ids rfl))
        exact hend _ final (.lost e refusal hdisturbs rfl
          (hafter.then_stays (hlast.then_stays hfinal)) hexempted hstore hfailed
          (hlost.becomes hfinal))
      · intro last hhangs hlast
        exact hhalted last hhangs (.removed (hafter.then_stays hlast))
  · intro after hhangs hafter
    exact hhalted after hhangs (.removed (hremoved.then_stays hafter))

theorem guarantees_unexempt_blockedIds {config : Config} {domain : String} (hquiet : regime.Quiet)
    {post : Except OverrideError Transition → World → Prop}
    (hend : ∀ result after,
      UnexemptOutcome regime config domain w (blockedIds config w.state domain) result after →
      post result after)
    (hhalted : ∀ after, regime.hangs → UnexemptHalt w (blockedIds config w.state domain) after →
      halted after) :
    Guarantees regime halted (unexempt config domain).run w post := by
  unfold unexempt
  rw [guarantees_attempt_bind]
  refine guarantees_loadState hquiet ?_ ?_ ?_
  · intro read hread
    have hids : (knownIds? config w.state domain).or
        (if w.state.isExempted domain then some (.hashed domain) else none)
          = blockedIds config w.state domain := rfl
    simp only [hids]
    -- With or without ids to clear, the commit starts from the same engine.
    have hcommit : ∀ removed, w.Becomes (w.engine.removeRules
        ((blockedIds config w.state domain).elim [] IdPair.toList)) w.state removed →
        (∀ ids, blockedIds config w.state domain = some ids →
          removed.Made [⟨.removeRules ids.toList, some (.ok ())⟩]) →
        Guarantees regime halted (commitBlocked config domain (w.state.isExempted domain)
          (blockedIds config w.state domain)).run removed post :=
      fun removed hremoved hmade => guarantees_commitBlocked hquiet (exists_blockedIds config)
        hremoved hmade hend hhalted
    cases hcleared : blockedIds config w.state domain with
    | none =>
      rw [hcleared] at hcommit
      exact hcommit read hread nofun
    | some ids =>
      rw [hcleared] at hcommit hend hhalted
      simp only
      rw [guarantees_attempt_bind, guarantees_onEngine]
      refine guarantees_removeRules ?_ ?_ ?_
      · intro removed hremoved hnotes
        rw [hread.engine, hread.state] at hremoved
        refine hcommit removed (hread.trans hremoved) ?_
        rintro _ ⟨⟩
        exact hnotes.made
      · intro e after hfails hafter hrefused
        exact hend _ after (.failed _ (.inl hfails) (hread.then_stays hafter) (hrefused.failed rfl))
      · intro after hhangs hafter
        exact hhalted after hhangs (.before (hread.then_stays hafter))
  · intro e after hdisturbs hafter hfailed
    exact hend _ after (.failed e hdisturbs hafter hfailed.failed)
  · intro after hhangs hafter
    exact hhalted after hhangs (.before hafter)

theorem guarantees_unexempt {config : Config} {domain : String}
    (htable : config.idScheme = .table) (hquiet : regime.Quiet)
    {post : Except OverrideError Transition → World → Prop}
    (hend : ∀ result after,
      UnexemptOutcome regime config domain w (touchedIds w.state domain) result after →
      post result after)
    (hhalted : ∀ after, regime.hangs → UnexemptHalt w (touchedIds w.state domain) after →
      halted after) :
    Guarantees regime halted (unexempt config domain).run w post := by
  rw [← blockedIds_of_table htable] at hend hhalted
  exact guarantees_unexempt_blockedIds hquiet hend hhalted

end Blocklist.Override
