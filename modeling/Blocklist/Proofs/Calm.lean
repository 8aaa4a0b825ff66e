import Blocklist.Proofs.Operation

set_option autoImplicit false

/-! # Toggles without failures

Where nothing goes wrong a toggle is a function of the settings, the engine and the state: `settle`
gives its result, the engine and the state after it, whichever scheme the ids come from
(`guarantees_toggle_calm`). -/

namespace Blocklist

theorem PersistedState.removeExemption_of_not_exempted {state : PersistedState} {domain : String}
    (h : state.isExempted domain = false) : state.removeExemption domain = state := by
  have hkept : state.exemptedDomains.filter (· != domain) = state.exemptedDomains := by
    refine List.filter_eq_self.2 fun other hother => bne_iff_ne.2 ?_
    rintro rfl
    rw [isExempted, List.contains_iff_mem.2 hother] at h
    cases h
  rw [removeExemption, hkept]

namespace Override

/-! ## Getting ids -/

/-- The ids under which the rules of a domain are installed, the stale ids to clear along with them,
and the state in which the ids are the domain's. -/
def prepare (config : Config) (domain : String) (state : PersistedState) :
    Except IdError (IdPair × Option IdPair × PersistedState) :=
  match knownIds? config state domain with
  | some ids => .ok (ids, none, state)
  | none =>
    (allocation config state.overrideIds domain).map fun (ids, table) =>
      (ids, staleIds state domain, { state with overrideIds := table })

section

variable {config : Config} {domain : String} {state after : PersistedState} {ids : IdPair}
  {stale : Option IdPair}

theorem prepare_of_knownIds? (h : knownIds? config state domain = some ids) :
    prepare config domain state = .ok (ids, none, state) := by
  rw [prepare, h]

theorem knownIds?_of_table (htable : config.idScheme = .table) (state : PersistedState)
    (domain : String) : knownIds? config state domain = state.overrideIds.get? domain := by
  rw [knownIds?, htable]

/-- A domain without ids gets those of an allocation. -/
theorem prepare_of_fresh (hnew : knownIds? config state domain = none)
    (h : prepare config domain state = .ok (ids, stale, after)) :
    stale = staleIds state domain
      ∧ ∃ table, allocation config state.overrideIds domain = .ok (ids, table)
        ∧ after = { state with overrideIds := table } := by
  rw [prepare, hnew] at h
  cases hallocation : allocation config state.overrideIds domain with
  | error e =>
    rw [hallocation] at h
    cases h
  | ok granted =>
    rw [hallocation] at h
    cases h
    exact ⟨rfl, _, rfl, rfl⟩

/-- Under the table scheme this is the grant of a pair. -/
theorem prepare_eq_ok_iff (htable : config.idScheme = .table) :
    prepare config domain state = .ok (ids, stale, after)
      ↔ Granted config domain state ids stale after := by
  constructor
  · intro h
    cases hknown : knownIds? config state domain with
    | some p =>
      rw [prepare_of_knownIds? hknown] at h
      cases h
      exact .known ((knownIds?_of_table htable ..).symm.trans hknown)
    | none =>
      obtain ⟨rfl, table, hallocation, rfl⟩ := prepare_of_fresh hknown h
      exact .fresh ((knownIds?_of_table htable ..).symm.trans hknown) hallocation
  · intro h
    cases h with
    | known hknown => exact prepare_of_knownIds? ((knownIds?_of_table htable ..).trans hknown)
    | fresh hnew hallocation =>
      rw [prepare, knownIds?_of_table htable, hnew, hallocation]
      rfl

/-- Only the table is changed. -/
theorem eq_of_prepare (h : prepare config domain state = .ok (ids, stale, after)) :
    after = { state with overrideIds := after.overrideIds } := by
  cases hknown : knownIds? config state domain with
  | some p =>
    rw [prepare_of_knownIds? hknown] at h
    cases h
    rfl
  | none =>
    obtain ⟨-, table, -, rfl⟩ := prepare_of_fresh hknown h
    rfl

theorem isExempted_of_prepare (h : prepare config domain state = .ok (ids, stale, after))
    (other : String) : after.isExempted other = state.isExempted other := by
  rw [eq_of_prepare h]
  rfl

/-- The other domains have what they had, and a domain that has a pair keeps it. -/
theorem get?_of_prepare (h : prepare config domain state = .ok (ids, stale, after))
    (other : String) : after.overrideIds.get? other = state.overrideIds.get? other
      ∨ other = domain ∧ state.overrideIds.get? other = none := by
  cases hknown : knownIds? config state domain with
  | some p =>
    rw [prepare_of_knownIds? hknown] at h
    cases h
    exact Or.inl rfl
  | none =>
    obtain ⟨-, table, hallocation, rfl⟩ := prepare_of_fresh hknown h
    by_cases heq : other = domain
    · subst heq
      refine Or.inr ⟨rfl, ?_⟩
      rw [knownIds?] at hknown
      split at hknown
      · cases hknown
      · exact hknown
    · exact Or.inl ((get?_of_allocation hallocation other).trans (if_neg (Ne.symm heq)))

/-- What was prepared need not be prepared again. -/
theorem knownIds?_of_prepare (h : prepare config domain state = .ok (ids, stale, after)) :
    knownIds? config after domain = some ids := by
  cases hknown : knownIds? config state domain with
  | some p =>
    rw [prepare_of_knownIds? hknown] at h
    cases h
    exact hknown
  | none =>
    obtain ⟨-, table, hallocation, rfl⟩ := prepare_of_fresh hknown h
    rw [knownIds?] at hknown ⊢
    cases hscheme : config.idScheme with
    | hashed =>
      rw [hscheme] at hknown
      cases hknown
    | table => exact (get?_of_allocation hallocation domain).trans (if_pos rfl)

end

variable {regime : Regime} {halted : World → Prop} {w : World} {config : Config} {domain : String}

/-- Under either scheme a domain gets its ids, or it gets none and nothing changes. -/
theorem guarantees_idsForInstall_prepare (hquiet : regime.Quiet)
    {post : Except OverrideError (IdPair × Option IdPair) → World → Prop}
    (hok : ∀ ids stale state after, prepare config domain w.state = .ok (ids, stale, state) →
      w.Becomes w.engine state after → post (.ok (ids, stale)) after)
    (hrefused : ∀ e after, prepare config domain w.state = .error e → w.Stays after →
      post (.error (.ids e)) after)
    (herror : ∀ e after, regime.Disturbs → w.Stays after → post (.error e) after)
    (hhalted : ∀ after, regime.hangs → w.Stays after → halted after) :
    Guarantees regime halted (idsForInstall config domain).run w post := by
  have herror' := fun e after hdisturbs hafter (_ : w.FailsOnStore after) =>
    herror e after hdisturbs hafter
  cases hscheme : config.idScheme with
  | hashed =>
    refine guarantees_idsForInstall_hashed hscheme hquiet (fun after hafter => ?_) herror' hhalted
    refine hok _ none w.state after (prepare_of_knownIds? ?_) hafter
    rw [knownIds?, hscheme]
  | table =>
    refine guarantees_idsForInstall hscheme hquiet ?_ ?_ herror' hhalted
    · intro ids stale state after hgranted hafter
      exact hok ids stale state after ((prepare_eq_ok_iff hscheme).2 hgranted) hafter
    · intro e after hnew hallocation hafter
      refine hrefused e after ?_ hafter
      rw [prepare, knownIds?_of_table hscheme, hnew, hallocation]
      rfl

theorem guarantees_exempt_prepare (hquiet : regime.Quiet)
    {post : Except OverrideError Transition → World → Prop}
    (hgranted : ∀ ids stale state result after,
      prepare config domain w.state = .ok (ids, stale, state) →
      GrantedOutcome regime config domain w ids stale state result after → post result after)
    (hrefused : ∀ e after, prepare config domain w.state = .error e → w.Stays after →
      post (.error (.ids e)) after)
    (herror : ∀ e after, regime.Disturbs → w.Stays after → post (.error e) after)
    (hhung : ∀ ids stale state after, regime.hangs →
      prepare config domain w.state = .ok (ids, stale, state) →
      GrantedHalt config domain w ids stale state after → halted after)
    (hhalted : ∀ after, regime.hangs → w.Stays after → halted after) :
    Guarantees regime halted (exempt config domain).run w post := by
  rw [exempt_eq, guarantees_attempt_bind]
  refine guarantees_idsForInstall_prepare hquiet ?_ hrefused herror hhalted
  intro ids stale state granted hprepare hbecomes
  exact guarantees_exemptWith hquiet (isExempted_of_prepare hprepare domain) hbecomes
    (fun result after h => hgranted ids stale state result after hprepare h)
    fun after hhangs h => hhung ids stale state after hhangs hprepare h

/-! ## Toggles -/

/-- The result of a toggle, with the engine and the state after it. -/
structure Settlement where
  result : Except OverrideError Transition
  engine : Engine
  state : PersistedState

/-- Where a toggle leads without failures, apart from the time of the last change. -/
def settle (config : Config) (domain : String) (blocked : Bool) (engine : Engine)
    (state : PersistedState) : Settlement :=
  if blocked then
    let ids := blockedIds config state domain
    ⟨.ok ⟨domain, .of (state.isExempted domain), .blocked, ids⟩,
      engine.removeRules (ids.elim [] IdPair.toList), state.removeExemption domain⟩
  else
    match prepare config domain state with
    | .error e => ⟨.error (.ids e), engine, state⟩
    | .ok (ids, stale, prepared) =>
      let cleared := engine.removeRules (clearedIds ids stale)
      match cleared.addRules (pairRules config domain ids) with
      | .error e => ⟨.error (.engine e), cleared, prepared.removeExemption domain⟩
      | .ok engine =>
        ⟨.ok ⟨domain, .of (state.isExempted domain), .exempted, some ids⟩, engine,
          prepared.addExemption domain⟩

/-- A toggle has ended in a world as it does without failures. -/
structure Settled (s : Settlement) (result : Except OverrideError Transition) (after : World) :
    Prop where
  result : result = s.result
  engine : after.engine = s.engine
  state : after.state = { s.state with lastUpdate := after.state.lastUpdate }

theorem Settled.exemptedDomains {s : Settlement} {result : Except OverrideError Transition}
    {after : World} (h : Settled s result after) :
    after.state.exemptedDomains = s.state.exemptedDomains := by
  rw [h.state]

theorem Settled.overrideIds {s : Settlement} {result : Except OverrideError Transition}
    {after : World} (h : Settled s result after) :
    after.state.overrideIds = s.state.overrideIds := by
  rw [h.state]

theorem World.Becomes.settled {after : World} {engine : Engine} {state : PersistedState}
    {time : Option UInt64} {result : Except OverrideError Transition}
    (h : w.Becomes engine { state with lastUpdate := time } after) :
    Settled ⟨result, engine, state⟩ result after where
  result := rfl
  engine := h.engine
  state := by rw [h.state]

theorem GrantedOutcome.settled {ids : IdPair} {stale : Option IdPair} {state : PersistedState}
    {result : Except OverrideError Transition} {after : World}
    (hprepare : prepare config domain w.state = .ok (ids, stale, state))
    (hend : GrantedOutcome .calm config domain w ids stale state result after) :
    Settled (settle config domain false w.engine w.state) result after := by
  rw [settle, if_neg Bool.false_ne_true, hprepare]
  simp only
  -- Without failures only the engine itself can refuse the pair.
  have hrefusal : ∀ {e}, Regime.calm.fails ∨ Refused config domain ids stale w.engine e →
      (w.engine.removeRules (clearedIds ids stale)).addRules (pairRules config domain ids)
        = .error e := fun h => h.resolve_left id
  cases hend with
  | untouched _ hdisturbs _ _ => exact absurd hdisturbs Regime.not_disturbs_calm
  | cleared hfailed hafter hexempted =>
    rw [hrefusal hfailed]
    simp only
    rw [PersistedState.removeExemption_of_not_exempted]
    · exact hafter.settled
    · rwa [isExempted_of_prepare hprepare]
  | dropped now hfailed hafter _ _ =>
    rw [hrefusal hfailed]
    exact hafter.settled
  | undropped hdisturbs _ _ _ _ => exact absurd hdisturbs Regime.not_disturbs_calm
  | kept _ hdisturbs _ _ _ => exact absurd hdisturbs Regime.not_disturbs_calm
  | withdrawn _ hdisturbs _ _ _ => exact absurd hdisturbs Regime.not_disturbs_calm
  | stranded _ _ hdisturbs _ _ _ _ _ => exact absurd hdisturbs Regime.not_disturbs_calm
  | done now hinstalled hafter =>
    rw [Installed] at hinstalled
    rw [hinstalled]
    exact hafter.settled

/-- Without failures a toggle does what `settle` says, from every state and under either scheme. -/
theorem guarantees_toggle_calm {blocked : Bool} :
    Guarantees .calm halted (toggle config domain blocked).run w
      (Settled (settle config domain blocked w.engine w.state)) := by
  have hdisturbs := Regime.not_disturbs_calm
  rw [toggle]
  cases blocked with
  | true =>
    refine guarantees_unexempt_blockedIds Regime.quiet_calm ?_ fun _ hhangs => hhangs.elim
    intro result after hend
    obtain ⟨now, rfl, hafter⟩ := hend.of_calm
    exact hafter.settled
  | false =>
    refine guarantees_exempt_prepare Regime.quiet_calm ?_ ?_ ?_ ?_ fun _ hhangs => hhangs.elim
    · intro ids stale state result after hprepare hend
      exact hend.settled hprepare
    · intro e after hprepare hafter
      rw [settle, if_neg Bool.false_ne_true, hprepare]
      exact hafter.settled
    · intro e after hdisturbed _
      exact absurd hdisturbed hdisturbs
    · intro _ _ _ _ hhangs
      exact hhangs.elim

section

-- Otherwise the elaborator tries to compute the name of an unknown input.
attribute [local irreducible] Manager.domainOf

variable (manager : Manager) {input : String} (blocked : Bool)

theorem guarantees_setDomainBlocking_calm (hdomain : Manager.domainOf input = .ok domain) :
    Guarantees .calm halted (manager.setDomainBlocking input blocked) w
      fun outcome after => outcome.2 = manager.forget
        ∧ Settled (settle manager.config domain blocked w.engine w.state) outcome.1 after :=
  (guarantees_setDomainBlocking hdomain).2 (guarantees_toggle_calm.imp fun _ _ h => ⟨rfl, h⟩)

/-- A bound on the time does not matter if nothing hangs. -/
theorem guarantees_setDomainBlockingWithin_calm {milliseconds : UInt64}
    (hdomain : Manager.domainOf input = .ok domain) :
    Guarantees .calm halted (manager.setDomainBlockingWithin input blocked milliseconds) w
      fun outcome after => outcome.2 = manager.forget
        ∧ Settled (settle manager.config domain blocked w.engine w.state) outcome.1 after :=
  guarantees_setDomainBlockingWithin hdomain
    (guarantees_toggle_calm.imp fun _ _ h => ⟨rfl, h⟩)

end

end Override

end Blocklist
