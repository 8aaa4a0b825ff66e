import Blocklist.Proofs.Operation

set_option autoImplicit false

/-! # Which migrations leave rules at hashed ids

The hashed ids of a domain are cleared together with the installation of its first pair, in the one
operation that hands the pair out. Afterwards the domain has a pair, and nobody looks at its hashed
ids again: what stands there when that operation fails after its first commit stays for good. -/

namespace Blocklist.Override

/-- A rule of a domain stands at its hashed ids. -/
def HashedLeft (config : Config) (engine : Engine) (domain : String) : Prop :=
  ∃ rule ∈ pairRules config domain (.hashed domain), engine.rule? rule.id = some rule

/-- No pair of the table shares an id with the hashed ids of a domain. -/
def Apart (state : PersistedState) (domain : String) : Prop :=
  ∀ other ids, state.overrideIds.get? other = some ids →
    ∀ id ∈ (IdPair.hashed domain).toList, id ∉ ids.toList

section

variable {config : Config} {engine engine' : Engine} {domain other : String} {ids : IdPair}
  {stale : Option IdPair}

/-! ## Hashed ids in an engine -/

theorem HashedLeft.of_removeRules {removed : List UInt32}
    (h : HashedLeft config (engine.removeRules removed) domain) :
    HashedLeft config engine domain := by
  obtain ⟨rule, hrule, hleft⟩ := h
  rw [Engine.rule?_removeRules] at hleft
  split at hleft
  · cases hleft
  · exact ⟨rule, hrule, hleft⟩

theorem hashedLeft_removeRules {removed : List UInt32}
    (h : ∀ id ∈ (IdPair.hashed domain).toList, id ∉ removed) :
    HashedLeft config (engine.removeRules removed) domain ↔ HashedLeft config engine domain := by
  refine ⟨HashedLeft.of_removeRules, ?_⟩
  rintro ⟨rule, hrule, hleft⟩
  refine ⟨rule, hrule, ?_⟩
  rw [Engine.rule?_removeRules, if_neg (h _ (id_mem_of_mem_pairRules hrule)), hleft]

theorem not_hashedLeft_removeRules {removed : List UInt32}
    (h : ∀ id ∈ (IdPair.hashed domain).toList, id ∈ removed) :
    ¬ HashedLeft config (engine.removeRules removed) domain := by
  rintro ⟨rule, hrule, hleft⟩
  rw [Engine.rule?_removeRules, if_pos (h _ (id_mem_of_mem_pairRules hrule))] at hleft
  cases hleft

/-- An installation at ids apart from the hashed ones only clears there. -/
theorem hashedLeft_of_installed
    (hinstalled : Installed config other ids stale engine engine')
    (h : ∀ id ∈ (IdPair.hashed domain).toList, id ∉ ids.toList) :
    HashedLeft config engine' domain
      ↔ HashedLeft config (engine.removeRules (clearedIds ids stale)) domain := by
  refine exists_congr fun rule => and_congr_right fun hrule => ?_
  have hid := id_mem_of_mem_pairRules hrule
  rw [hinstalled.rule?_iff, or_iff_right fun hmem => h _ hid (id_mem_of_mem_pairRules hmem.1),
    Engine.rule?_removeRules]
  split
  · rename_i hcleared
    simp [hcleared]
  · rename_i hcleared
    simp [hcleared]

end

/-! ## Single changes -/

/-- On the way from one state to another, another domain is migrated whose hashed ids are not its
own. -/
def Collides (state state' : PersistedState) (domain : String) : Prop :=
  ∃ other, other ≠ domain ∧ Legacy state other ∧ state'.overrideIds.get? other ≠ none
    ∧ (IdPair.hashed other).overlaps (.hashed domain) = true

/-- What happens to the rules at the hashed ids of `domain` on the way from one engine and state to
another. -/
inductive HashedChange (config : Config) (domain : String) (engine : Engine)
    (state : PersistedState) (engine' : Engine) (state' : PersistedState) : Prop where
  | kept : (HashedLeft config engine' domain ↔ HashedLeft config engine domain) →
      HashedChange config domain engine state engine' state'
  | cleared : Legacy state domain → ¬ HashedLeft config engine' domain →
      HashedChange config domain engine state engine' state'
  | collided : Collides state state' domain →
      (HashedLeft config engine' domain → HashedLeft config engine domain) →
      HashedChange config domain engine state engine' state'
  | reinstated : Legacy state domain → state' = state →
      HashedChange config domain engine state engine' state'

/-- What a part of an operation does to a domain whose rules may stand at its hashed ids, and to the
other domains. -/
structure Moves (regime : Regime) (config : Config) (domain : String) (engine : Engine)
    (state : PersistedState) (engine' : Engine) (state' : PersistedState) : Prop where
  keeps : ∀ {other ids}, state.overrideIds.get? other = some ids →
    state'.overrideIds.get? other = some ids
  legacy : ∀ {other}, other ≠ domain → Legacy state' other → Legacy state other
  stays : Apart state' domain → Legacy state domain → state'.overrideIds.get? domain = none →
    state'.isExempted domain = true ∨ ¬ HashedLeft config engine' domain
  prompt : Apart state' domain → Legacy state domain → state'.overrideIds.get? domain ≠ none →
    regime.Disturbs ∨ ¬ HashedLeft config engine' domain
  change : Apart state' domain → HashedChange config domain engine state engine' state'

section

variable {regime : Regime} {config : Config} {engine engine' : Engine}
  {state state' granted : PersistedState} {domain other : String} {ids : IdPair}
  {stale : Option IdPair} {w after : World}

theorem Moves.refl (regime : Regime) (config : Config) (domain : String) (engine : Engine)
    (state : PersistedState) : Moves regime config domain engine state engine state where
  keeps h := h
  legacy _ h := h
  stays _ h _ := Or.inl h.1
  prompt _ h hnew := absurd h.2 hnew
  change _ := .kept Iff.rfl

theorem not_hashedLeft_of_granted (hgranted : Granted config domain state ids stale granted)
    (hlegacy : Legacy state domain) :
    ¬ HashedLeft config (engine.removeRules (clearedIds ids stale)) domain :=
  not_hashedLeft_removeRules fun _ hid => mem_clearedIds.2
    (Or.inr ⟨_, (hgranted.stale_eq_some_iff _).2 ⟨hlegacy, rfl⟩, hid⟩)

/-- Clearing the ids of a domain that is about to be installed takes its own rules from its hashed
ids, or those of another domain whose hash collides with its own. -/
theorem hashedChange_of_granted (hgranted : Granted config other state ids stale granted)
    (htable : state'.overrideIds = granted.overrideIds) (hapart : Apart granted domain)
    (hengine : HashedLeft config engine' domain
      ↔ HashedLeft config (engine.removeRules (clearedIds ids stale)) domain) :
    HashedChange config domain engine state engine' state' := by
  have hids := hapart other ids hgranted.get?_self
  cases hstale : stale with
  | none =>
    rw [hstale, clearedIds_none, hashedLeft_removeRules hids] at hengine
    exact .kept hengine
  | some old =>
    obtain ⟨hlegacy, rfl⟩ := (hgranted.stale_eq_some_iff old).1 hstale
    by_cases heq : other = domain
    · subst heq
      exact .cleared hlegacy fun hleft =>
        not_hashedLeft_of_granted hgranted hlegacy (hengine.1 hleft)
    · by_cases hoverlaps : (IdPair.hashed other).overlaps (.hashed domain) = true
      · have hnew : state'.overrideIds.get? other ≠ none := by
          rw [htable, hgranted.get?_self]
          exact Option.some_ne_none ids
        exact .collided ⟨other, heq, hlegacy, hnew, hoverlaps⟩ fun hleft =>
          (hengine.1 hleft).of_removeRules
      · refine .kept (hengine.trans (hashedLeft_removeRules fun id hid hcleared => ?_))
        rcases mem_clearedIds.1 hcleared with hmem | ⟨q, hq, hmem⟩
        · exact hids id hid hmem
        · cases hstale.symm.trans hq
          exact hoverlaps (IdPair.overlaps_eq_true_iff.2 ⟨id, hmem, hid⟩)

/-- What follows on a grant: nothing, because something failed, or the ids are cleared. -/
theorem Moves.of_granted (hgranted : Granted config other state ids stale granted)
    (htable : state'.overrideIds = granted.overrideIds)
    (hexempted : ∀ {x}, x ≠ domain → state'.isExempted x = true → granted.isExempted x = true)
    (hself : other ≠ domain → granted.isExempted domain = true → state'.isExempted domain = true)
    (hengine : regime.Disturbs ∧ engine' = engine ∨ (Apart granted domain →
      (HashedLeft config engine' domain
        ↔ HashedLeft config (engine.removeRules (clearedIds ids stale)) domain))) :
    Moves regime config domain engine state engine' state' := by
  have happly : Apart state' domain → Apart granted domain := by
    intro hapart x p hp
    exact hapart x p (htable ▸ hp)
  refine ⟨fun h => htable ▸ hgranted.get?_of_eq_some h, ?_, ?_, ?_, ?_⟩
  · rintro x hne ⟨hx, hnone⟩
    refine ⟨hgranted.isExempted x ▸ hexempted hne hx, ?_⟩
    cases hknown : state.overrideIds.get? x with
    | none => rfl
    | some p =>
      rw [htable, hgranted.get?_of_eq_some hknown] at hnone
      cases hnone
  · intro _ hlegacy hnone
    -- A domain that stays without a pair is not the one that was granted its own.
    have hne : other ≠ domain := by
      rintro rfl
      rw [htable, hgranted.get?_self] at hnone
      cases hnone
    exact Or.inl (hself hne ((hgranted.isExempted domain).trans hlegacy.1))
  · intro hapart hlegacy hnew
    rcases hengine with ⟨hdisturbs, -⟩ | hengine
    · exact Or.inl hdisturbs
    · refine Or.inr fun hleft => ?_
      have heq : other = domain := Classical.byContradiction fun hne => by
        rw [htable, hgranted.get?_of_ne (Ne.symm hne)] at hnew
        exact hnew hlegacy.2
      subst heq
      exact not_hashedLeft_of_granted hgranted hlegacy ((hengine (happly hapart)).1 hleft)
  · intro hapart
    rcases hengine with ⟨-, rfl⟩ | hengine
    · exact .kept Iff.rfl
    · exact hashedChange_of_granted hgranted htable (happly hapart) (hengine (happly hapart))

/-- Blocking a domain clears its hashed ids if it has no pair. -/
theorem not_hashedLeft_blocked (hlegacy : Legacy state domain) :
    ¬ HashedLeft config (blocked engine state domain) domain := by
  rw [blocked_of_touchedIds_eq_some (touchedIds_of_legacy hlegacy)]
  exact not_hashedLeft_removeRules fun _ hid => hid

/-- Otherwise it leaves them as they are. -/
theorem hashedLeft_blocked (hapart : Apart state domain) (hlegacy : ¬ Legacy state domain) :
    HashedLeft config (blocked engine state domain) domain ↔ HashedLeft config engine domain := by
  cases hids : state.overrideIds.get? domain with
  | some ids =>
    rw [blocked_of_touchedIds_eq_some (touchedIds_of_get?_eq_some hids)]
    exact hashedLeft_removeRules (hapart domain ids hids)
  | none =>
    have htouched : touchedIds state domain = none := by
      rw [touchedIds_of_get?_eq_none hids, staleIds, if_neg fun hx => hlegacy ⟨hx, hids⟩]
    rw [blocked_of_touchedIds_eq_none htouched]

theorem Moves.of_blocked (htable : state'.overrideIds = state.overrideIds)
    (hexempted : ∀ {x}, x ≠ domain → state'.isExempted x = true → state.isExempted x = true) :
    Moves regime config domain engine state (blocked engine state domain) state' := by
  refine ⟨fun h => htable ▸ h, ?_, fun _ hlegacy _ => Or.inr (not_hashedLeft_blocked hlegacy),
    fun _ hlegacy _ => Or.inr (not_hashedLeft_blocked hlegacy), fun hapart => ?_⟩
  · rintro x hne ⟨hx, hnone⟩
    exact ⟨hexempted hne hx, htable ▸ hnone⟩
  · have hapart : Apart state domain := fun other p hp => hapart other p (htable ▸ hp)
    by_cases hlegacy : Legacy state domain
    · exact .cleared hlegacy (not_hashedLeft_blocked hlegacy)
    · exact .kept (hashedLeft_blocked hapart hlegacy)

/-- An installation at the pair that was granted. -/
theorem hashedLeft_of_granted_installed
    (hgranted : Granted config other state ids stale granted)
    (hinstalled : Installed config other ids stale engine engine') (hapart : Apart granted domain) :
    HashedLeft config engine' domain
      ↔ HashedLeft config (engine.removeRules (clearedIds ids stale)) domain :=
  hashedLeft_of_installed hinstalled (hapart other ids hgranted.get?_self)

theorem GrantedOutcome.moves {result : Except OverrideError Transition}
    (hgranted : Granted config domain w.state ids stale state)
    (hend : GrantedOutcome regime config domain w ids stale state result after) :
    Moves regime config domain w.engine w.state after.engine after.state := by
  have hremoved : ∀ now {x}, x ≠ domain →
      ((state.removeExemption domain).touch now).isExempted x = true →
      state.isExempted x = true := by
    intro now x _ hx
    rw [PersistedState.isExempted_touch, PersistedState.isExempted_removeExemption] at hx
    exact hx.2
  have hadded : ∀ now {x}, x ≠ domain →
      ((state.addExemption domain).touch now).isExempted x = true → state.isExempted x = true := by
    intro now x hne hx
    rw [PersistedState.isExempted_touch, PersistedState.isExempted_addExemption] at hx
    exact hx.resolve_left hne
  cases hend with
  | untouched _ hdisturbs hafter _ =>
    rw [hafter.engine, hafter.state]
    exact .of_granted hgranted rfl (fun _ h => h) (fun _ h => h) (Or.inl ⟨hdisturbs, rfl⟩)
  | cleared _ hafter _ =>
    rw [hafter.engine, hafter.state]
    exact .of_granted hgranted rfl (fun _ h => h) (fun _ h => h) (Or.inr fun _ => Iff.rfl)
  | dropped now _ hafter _ _ =>
    rw [hafter.engine, hafter.state]
    exact .of_granted hgranted rfl (hremoved now) (fun h => absurd rfl h) (Or.inr fun _ => Iff.rfl)
  | undropped _ hafter _ _ _ =>
    rw [hafter.engine, hafter.state]
    exact .of_granted hgranted rfl (fun _ h => h) (fun _ h => h) (Or.inr fun _ => Iff.rfl)
  | kept _ _ hinstalled hafter _ =>
    rw [hafter.engine, hafter.state]
    exact .of_granted hgranted rfl (fun _ h => h) (fun _ h => h)
      (Or.inr (hashedLeft_of_granted_installed hgranted hinstalled))
  | withdrawn _ _ hinstalled hafter _ =>
    rw [hafter.engine, hafter.state]
    refine .of_granted hgranted rfl (fun _ h => h) (fun _ h => h) (Or.inr fun hapart => ?_)
    rw [hashedLeft_removeRules (hapart domain ids hgranted.get?_self)]
    exact hashedLeft_of_granted_installed hgranted hinstalled hapart
  | stranded _ _ _ hinstalled hafter _ _ _ =>
    rw [hafter.engine, hafter.state]
    exact .of_granted hgranted rfl (fun _ h => h) (fun _ h => h)
      (Or.inr (hashedLeft_of_granted_installed hgranted hinstalled))
  | done now hinstalled hafter =>
    rw [hafter.engine, hafter.state]
    exact .of_granted hgranted (PersistedState.overrideIds_addExemption ..) (hadded now)
      (fun h => absurd rfl h) (Or.inr (hashedLeft_of_granted_installed hgranted hinstalled))

theorem World.Becomes.moves (hafter : w.Stays after) :
    Moves regime config domain w.engine w.state after.engine after.state := by
  rw [hafter.engine, hafter.state]
  exact .refl ..

theorem ExemptOutcome.moves {result : Except OverrideError Transition}
    (hend : ExemptOutcome regime config domain w result after) :
    Moves regime config domain w.engine w.state after.engine after.state := by
  cases hend with
  | refused _ _ hafter => exact hafter.moves
  | failed _ _ hafter => exact hafter.moves
  | granted hgranted hend => exact hend.moves hgranted

theorem UnexemptOutcome.moves {result : Except OverrideError Transition}
    (hend : UnexemptOutcome regime config domain w (touchedIds w.state domain) result after) :
    Moves regime config domain w.engine w.state after.engine after.state := by
  cases hend with
  | failed _ _ hafter _ => exact hafter.moves
  | uncommitted _ _ hafter _ =>
    rw [hafter.engine, hafter.state]
    exact .of_blocked rfl fun _ h => h
  | @reinstated _ ids _ _ _ htouched hinstalled hafter hexempted =>
    rw [hafter.engine, hafter.state]
    cases hids : w.state.overrideIds.get? domain with
    | some p =>
      obtain rfl : p = ids :=
        Option.some.inj ((touchedIds_of_get?_eq_some hids).symm.trans htouched)
      exact .of_granted (.known hids) rfl (fun _ h => h) (fun _ h => h)
        (Or.inr (hashedLeft_of_granted_installed (.known hids) hinstalled))
    | none =>
      -- Its rules are added again at its hashed ids, and it still has no pair.
      exact ⟨fun h => h, fun _ h => h, fun _ h _ => Or.inl h.1, fun _ h hnew => absurd h.2 hnew,
        fun _ => .reinstated ⟨hexempted, hids⟩ rfl⟩
  | lost _ _ _ _ hafter _ _ =>
    rw [hafter.engine, hafter.state]
    exact .of_blocked rfl fun _ h => h
  | done now hafter =>
    rw [hafter.engine, hafter.state]
    refine .of_blocked rfl fun _ hx => ?_
    rw [PersistedState.isExempted_touch, PersistedState.isExempted_removeExemption] at hx
    exact hx.2

theorem RestoreOutcome.moves {result : Except OverrideError Bool}
    (hend : RestoreOutcome regime config other w result after) :
    Moves regime config domain w.engine w.state after.engine after.state := by
  cases hend with
  | skipped _ hafter => exact hafter.moves
  | refused _ _ _ hafter => exact hafter.moves
  | failed _ _ hafter => exact hafter.moves
  | untouched _ _ hgranted hdisturbs hafter _ =>
    rw [hafter.engine, hafter.state]
    exact .of_granted hgranted rfl (fun _ h => h) (fun _ h => h) (Or.inl ⟨hdisturbs, rfl⟩)
  | cleared _ _ hgranted _ hafter =>
    rw [hafter.engine, hafter.state]
    exact .of_granted hgranted rfl (fun _ h => h) (fun _ h => h) (Or.inr fun _ => Iff.rfl)
  | done _ hgranted hinstalled hafter =>
    rw [hafter.engine, hafter.state]
    exact .of_granted hgranted rfl (fun _ h => h) (fun _ h => h)
      (Or.inr (hashedLeft_of_granted_installed hgranted hinstalled))

theorem ClearOutcome.moves {result : Except OverrideError Bool}
    (hend : ClearOutcome regime other w result after) :
    Moves regime config domain w.engine w.state after.engine after.state := by
  cases hend with
  | skipped _ hafter => exact hafter.moves
  | failed _ _ hafter => exact hafter.moves
  | done hids _ hafter =>
    rw [hafter.engine, hafter.state]
    refine .of_granted (.known hids) rfl (fun _ h => h) (fun _ h => h) (Or.inr fun _ => ?_)
    rw [clearedIds_none]

end

/-! ## Operations -/

/-- What one or several parts of an operation do to a domain and to the others. Rules that were at
the hashed ids of a domain without a pair are gone with its exemption; they stay behind only if the
domain got its pair and something failed. Rules that were left behind stay unless a hash
collides. -/
structure Passes (regime : Regime) (config : Config) (domain : String) (engine : Engine)
    (state : PersistedState) (engine' : Engine) (state' : PersistedState) : Prop where
  keeps : ∀ {other ids}, state.overrideIds.get? other = some ids →
    state'.overrideIds.get? other = some ids
  legacy : ∀ {other}, other ≠ domain → Legacy state' other → Legacy state other
  clean : Apart state' domain → (HashedLeft config engine domain → Legacy state domain) →
    HashedLeft config engine' domain →
    Legacy state' domain ∨ state.overrideIds.get? domain = none
      ∧ state'.overrideIds.get? domain ≠ none ∧ regime.Disturbs
  orphan : Apart state' domain → state.overrideIds.get? domain ≠ none →
    HashedLeft config engine domain →
    HashedLeft config engine' domain ∨ Collides state state' domain

section

variable {regime : Regime} {config : Config} {engine engine₁ engine₂ : Engine}
  {state state₁ state₂ state₃ : PersistedState} {domain : String}

theorem Apart.of_keeps (h : Apart state₂ domain)
    (hkeeps : ∀ {other ids}, state.overrideIds.get? other = some ids →
      state₂.overrideIds.get? other = some ids) : Apart state domain :=
  fun other ids hids => h other ids (hkeeps hids)

theorem get?_ne_none_of_keeps
    (hkeeps : ∀ {other ids}, state.overrideIds.get? other = some ids →
      state₂.overrideIds.get? other = some ids)
    (h : state.overrideIds.get? domain ≠ none) : state₂.overrideIds.get? domain ≠ none := by
  obtain ⟨ids, hids⟩ := Option.ne_none_iff_exists'.1 h
  rw [hkeeps hids]
  exact Option.some_ne_none ids

theorem Collides.widen (h : Collides state₁ state₂ domain)
    (hlegacy : ∀ {other}, other ≠ domain → Legacy state₁ other → Legacy state other)
    (hkeeps : ∀ {other ids}, state₂.overrideIds.get? other = some ids →
      state₃.overrideIds.get? other = some ids) : Collides state state₃ domain := by
  obtain ⟨other, hne, hother, hnew, hoverlaps⟩ := h
  exact ⟨other, hne, hlegacy hne hother, get?_ne_none_of_keeps hkeeps hnew, hoverlaps⟩

theorem Passes.refl (regime : Regime) (config : Config) (domain : String) (engine : Engine)
    (state : PersistedState) : Passes regime config domain engine state engine state where
  keeps h := h
  legacy _ h := h
  clean _ hstart hleft := Or.inl (hstart hleft)
  orphan _ _ hleft := Or.inl hleft

theorem Passes.moves (h : Passes regime config domain engine state engine₁ state₁)
    (hmoves : Moves regime config domain engine₁ state₁ engine₂ state₂) :
    Passes regime config domain engine state engine₂ state₂ where
  keeps hids := hmoves.keeps (h.keeps hids)
  legacy hne hlegacy := h.legacy hne (hmoves.legacy hne hlegacy)
  clean := by
    intro hapart hstart hleft
    -- As long as the rules were there before the last part, they were explained then.
    have hbefore : HashedLeft config engine₁ domain → Legacy state₂ domain
        ∨ state.overrideIds.get? domain = none
          ∧ state₂.overrideIds.get? domain ≠ none ∧ regime.Disturbs := by
      intro hleft₁
      rcases h.clean (hapart.of_keeps hmoves.keeps) hstart hleft₁ with
        hlegacy | ⟨hnone, hnew, hdisturbs⟩
      · by_cases hnone : state₂.overrideIds.get? domain = none
        · rcases hmoves.stays hapart hlegacy hnone with hexempted | hgone
          · exact Or.inl ⟨hexempted, hnone⟩
          · exact absurd hleft hgone
        · rcases hmoves.prompt hapart hlegacy hnone with hdisturbs | hgone
          · refine Or.inr ⟨?_, hnone, hdisturbs⟩
            exact Classical.byContradiction fun hknown =>
              get?_ne_none_of_keeps h.keeps hknown hlegacy.2
          · exact absurd hleft hgone
      · exact Or.inr ⟨hnone, get?_ne_none_of_keeps hmoves.keeps hnew, hdisturbs⟩
    cases hmoves.change hapart with
    | kept hkept => exact hbefore (hkept.1 hleft)
    | cleared _ hgone => exact absurd hleft hgone
    | collided _ hkept => exact hbefore (hkept hleft)
    | reinstated hlegacy hsame => exact Or.inl (hsame ▸ hlegacy)
  orphan := by
    intro hapart hknown hleft
    have hknown₁ := get?_ne_none_of_keeps h.keeps hknown
    rcases h.orphan (hapart.of_keeps hmoves.keeps) hknown hleft with hleft₁ | hcollides
    · cases hmoves.change hapart with
      | kept hkept => exact Or.inl (hkept.2 hleft₁)
      | cleared hlegacy _ => exact absurd hlegacy.2 hknown₁
      | collided hcollides _ => exact Or.inr (hcollides.widen h.legacy id)
      | reinstated hlegacy _ => exact absurd hlegacy.2 hknown₁
    · exact Or.inr (hcollides.widen (fun _ h => h) hmoves.keeps)

/-- Once a domain has its pair, nothing comes to its hashed ids any more, and what stands there goes
only if a hash collides. -/
theorem Passes.hashedLeft_iff (h : Passes regime config domain engine state engine₁ state₁)
    (hapart : Apart state₁ domain) (hknown : state.overrideIds.get? domain ≠ none) :
    HashedLeft config engine₁ domain ↔ HashedLeft config engine domain
      ∧ ¬ (Collides state state₁ domain ∧ HashedLeft config engine domain
        ∧ ¬ HashedLeft config engine₁ domain) := by
  constructor
  · intro hleft
    refine ⟨Classical.byContradiction fun hnot => ?_, fun hgone => hgone.2.2 hleft⟩
    rcases h.clean hapart (fun hleft => absurd hleft hnot) hleft with hlegacy | ⟨hnone, -⟩
    · exact get?_ne_none_of_keeps h.keeps hknown hlegacy.2
    · exact hknown hnone
  · rintro ⟨hleft, hspared⟩
    rcases h.orphan hapart hknown hleft with hleft | hcollides
    · exact hleft
    · exact Classical.byContradiction fun hgone => hspared ⟨hcollides, hleft, hgone⟩

end

/-- The operations that restore, or that toggle a given domain. -/
def Operation.Concerns (domain : String) : Operation → Prop
  | toggle input _ => Manager.domainOf input = .ok domain
  | restore => True
  | _ => False

section

-- Otherwise the elaborator tries to compute the name of an unknown input.
attribute [local irreducible] Manager.domainOf

variable {regime : Regime} {w : World} {manager : Manager} {domain : String}

theorem guarantees_toggle_passes {config : Config} (blocked : Bool)
    (htable : config.idScheme = .table) (hquiet : regime.Quiet) (hanswered : ¬ regime.hangs) :
    Guarantees regime (fun _ => False) (toggle config domain blocked).run w fun _ after =>
      Passes regime config domain w.engine w.state after.engine after.state := by
  rw [toggle]
  split
  · exact guarantees_unexempt htable hquiet
      (fun _ _ hend => (Passes.refl ..).moves hend.moves) fun _ hhangs => absurd hhangs hanswered
  · exact guarantees_exempt htable hquiet
      (fun _ _ hend => (Passes.refl ..).moves hend.moves) fun _ hhangs => absurd hhangs hanswered

theorem guarantees_restoreAll_passes {config : Config} (domain : String)
    (htable : config.idScheme = .table) (hquiet : regime.Quiet) (hanswered : ¬ regime.hangs) :
    Guarantees regime (fun _ => False) (restoreAll config).run w fun _ after =>
      Passes regime config domain w.engine w.state after.engine after.state := by
  refine guarantees_restoreAll htable hquiet hanswered
    (fun _ _ u => Passes regime config domain w.engine w.state u.engine u.state)
    (fun _ _ u => Passes regime config domain w.engine w.state u.engine u.state) ?_ ?_ ?_ ?_ ?_ ?_
  · intro _ _ _ hafter
    exact (Passes.refl ..).moves hafter.moves
  · intro reconciled after hout
    refine (Passes.refl ..).moves ?_
    cases hout with
    | agreed _ hafter => exact hafter.moves
    | done hafter =>
      rw [hafter.engine, hafter.state]
      exact ⟨fun h => h, fun _ h => h, fun _ h _ => Or.inl h.1, fun _ h hnew => absurd h.2 hnew,
        fun _ => .kept Iff.rfl⟩
  · intro _ _ _ _ _ _ hu hout
    exact hu.moves hout.moves
  · intro _ _ hu
    exact hu
  · intro _ _ _ _ _ _ hu hout
    exact hu.moves hout.moves
  · intro _ _ hu
    exact hu

theorem guarantees_program_passes {operation : Operation} (hconcerns : operation.Concerns domain)
    (htable : manager.config.idScheme = .table) (hquiet : regime.Quiet)
    (hanswered : ¬ regime.hangs) :
    Guarantees regime (fun _ => False) (operation.program manager) w fun manager' after =>
      manager'.config = manager.config
        ∧ Passes regime manager.config domain w.engine w.state after.engine after.state := by
  cases operation with
  | toggle input blocked =>
    rw [Operation.program, guarantees_bind, guarantees_setDomainBlocking hconcerns]
    exact (guarantees_toggle_passes blocked htable hquiet hanswered).imp fun _ _ h => ⟨rfl, h⟩
  | restore =>
    rw [Operation.program, guarantees_bind]
    refine guarantees_restore
      (Guarantees.imp (guarantees_restoreAll_passes domain htable hquiet hanswered) ?_)
    intro result after hafter
    cases result with
    | ok report => exact ⟨rfl, hafter⟩
    | error e => exact ⟨rfl, hafter⟩
  | toggleWithin => exact hconcerns.elim
  | setGlobal => exact hconcerns.elim
  | status => exact hconcerns.elim

end

/-! ## Runs -/

/-- A step in which a domain gets its pair while a rule of it stays at its hashed ids. -/
def Passage.Abandons (config : Config) (domain : String) (p : Passage) : Prop :=
  (∃ state, p.before.persisted? = some state ∧ state.overrideIds.get? domain = none)
    ∧ (∃ state, p.after.persisted? = some state ∧ state.overrideIds.get? domain ≠ none)
    ∧ HashedLeft config p.after.engine domain

theorem abandons_iff {view : Store.View} {config : Config} {domain : String} {p : Passage}
    {v v' : Versioned} (hbefore : view.Holds p.before.store v)
    (hafter : view.Holds p.after.store v') :
    p.Abandons config domain ↔ v.state.overrideIds.get? domain = none
      ∧ v'.state.overrideIds.get? domain ≠ none ∧ HashedLeft config p.after.engine domain := by
  rw [Passage.Abandons, persisted?_of_holds hbefore, persisted?_of_holds hafter]
  simp

/-- A step in which the last rules of a domain go from its hashed ids since another domain is
migrated whose hashed ids are not its own. -/
def Passage.Overruns (config : Config) (domain : String) (p : Passage) : Prop :=
  (∃ state state', p.before.persisted? = some state ∧ p.after.persisted? = some state'
      ∧ Collides state state' domain)
    ∧ HashedLeft config p.before.engine domain ∧ ¬ HashedLeft config p.after.engine domain

theorem overruns_iff {view : Store.View} {config : Config} {domain : String} {p : Passage}
    {v v' : Versioned} (hbefore : view.Holds p.before.store v)
    (hafter : view.Holds p.after.store v') :
    p.Overruns config domain ↔ Collides v.state v'.state domain
      ∧ HashedLeft config p.before.engine domain ∧ ¬ HashedLeft config p.after.engine domain := by
  rw [Passage.Overruns, persisted?_of_holds hbefore, persisted?_of_holds hafter]
  simp

/-- Some step gave a domain its pair and left a rule at its hashed ids, and no step after it took
that away. -/
def Orphaned (config : Config) (domain : String) (passed : List Passage) : Prop :=
  ∃ earlier p later, passed = earlier ++ p :: later ∧ p.Abandons config domain
    ∧ ∀ q ∈ later, ¬ q.Overruns config domain

/-- What a run of steps does to a domain whose rules may stand at its hashed ids. -/
structure Course (config : Config) (domain : String) (engine : Engine) (state : PersistedState)
    (passed : List Passage) (engine' : Engine) (state' : PersistedState) : Prop where
  keeps : ∀ {other ids}, state.overrideIds.get? other = some ids →
    state'.overrideIds.get? other = some ids
  legacy : ∀ {other}, other ≠ domain → Legacy state' other → Legacy state other
  once : ∀ p ∈ passed, p.Abandons config domain → state.overrideIds.get? domain = none
  collides : ∀ p ∈ passed, p.Overruns config domain → Collides state state' domain
  sticks : Apart state' domain → state.overrideIds.get? domain ≠ none →
    (HashedLeft config engine' domain ↔ HashedLeft config engine domain
      ∧ ∀ p ∈ passed, ¬ p.Overruns config domain)
  clean : Apart state' domain → (HashedLeft config engine domain → Legacy state domain) →
    HashedLeft config engine' domain → Legacy state' domain ∨ Orphaned config domain passed
  orphan : Apart state' domain → Orphaned config domain passed →
    state'.overrideIds.get? domain ≠ none ∧ HashedLeft config engine' domain
  faulty : Apart state' domain → (HashedLeft config engine domain → Legacy state domain) →
    ∀ p ∈ passed, p.Abandons config domain → ¬ Regime.calm.Admits p.step.schedule

section

variable {config : Config} {domain : String} {engine engine₁ engine₂ : Engine}
  {state state₁ state₂ : PersistedState} {passed : List Passage} {p : Passage}

theorem not_orphaned_nil : ¬ Orphaned config domain [] := by
  rintro ⟨earlier, p, later, hsplit, -⟩
  cases earlier <;> cases hsplit

theorem orphaned_cons : Orphaned config domain (p :: passed) ↔
    p.Abandons config domain ∧ (∀ q ∈ passed, ¬ q.Overruns config domain)
      ∨ Orphaned config domain passed := by
  constructor
  · rintro ⟨earlier, q, later, hsplit, habandons, hspared⟩
    cases earlier with
    | nil =>
      cases hsplit
      exact Or.inl ⟨habandons, hspared⟩
    | cons first earlier =>
      cases hsplit
      exact Or.inr ⟨earlier, q, later, rfl, habandons, hspared⟩
  · rintro (⟨habandons, hspared⟩ | ⟨earlier, q, later, rfl, habandons, hspared⟩)
    · exact ⟨[], p, passed, rfl, habandons, hspared⟩
    · exact ⟨p :: earlier, q, later, rfl, habandons, hspared⟩

theorem Course.nil : Course config domain engine state [] engine state where
  keeps h := h
  legacy _ h := h
  once _ hp := absurd hp List.not_mem_nil
  collides _ hp := absurd hp List.not_mem_nil
  sticks _ _ := by simp
  clean _ hstart hleft := Or.inl (hstart hleft)
  orphan _ horphaned := absurd horphaned not_orphaned_nil
  faulty _ _ _ hp := absurd hp List.not_mem_nil

/-- A run goes on after a step. -/
theorem Course.cons
    (habandons : p.Abandons config domain ↔ state.overrideIds.get? domain = none
      ∧ state₁.overrideIds.get? domain ≠ none ∧ HashedLeft config engine₁ domain)
    (hoverruns : p.Overruns config domain ↔ Collides state state₁ domain
      ∧ HashedLeft config engine domain ∧ ¬ HashedLeft config engine₁ domain)
    (hstep : Passes (.rough False) config domain engine state engine₁ state₁)
    (hcalm : Regime.calm.Admits p.step.schedule →
      Passes .calm config domain engine state engine₁ state₁)
    (hrest : Course config domain engine₁ state₁ passed engine₂ state₂) :
    Course config domain engine state (p :: passed) engine₂ state₂ := by
  have hnext : Apart state₂ domain → (HashedLeft config engine domain → Legacy state domain) →
      ¬ p.Abandons config domain → HashedLeft config engine₁ domain → Legacy state₁ domain := by
    intro hapart hstart hnot hleft
    rcases hstep.clean (hapart.of_keeps hrest.keeps) hstart hleft with hlegacy | ⟨hnone, hnew, -⟩
    · exact hlegacy
    · exact absurd (habandons.2 ⟨hnone, hnew, hleft⟩) hnot
  refine ⟨fun h => hrest.keeps (hstep.keeps h),
    fun hne h => hstep.legacy hne (hrest.legacy hne h), ?_, ?_, ?_, ?_, ?_, ?_⟩
  · intro q hq hqabandons
    rcases List.mem_cons.1 hq with rfl | hq
    · exact (habandons.1 hqabandons).1
    · exact Classical.byContradiction fun hknown =>
        get?_ne_none_of_keeps hstep.keeps hknown (hrest.once q hq hqabandons)
  · intro q hq hqoverruns
    rcases List.mem_cons.1 hq with rfl | hq
    · exact (hoverruns.1 hqoverruns).1.widen (fun _ h => h) hrest.keeps
    · exact (hrest.collides q hq hqoverruns).widen hstep.legacy id
  · intro hapart hknown
    -- A domain keeps its pair, so the same holds of the rest of the run.
    have hfirst : HashedLeft config engine₁ domain
        ↔ HashedLeft config engine domain ∧ ¬ p.Overruns config domain := by
      rw [hoverruns]
      exact hstep.hashedLeft_iff (hapart.of_keeps hrest.keeps) hknown
    rw [hrest.sticks hapart (get?_ne_none_of_keeps hstep.keeps hknown), List.forall_mem_cons,
      hfirst, and_assoc]
  · intro hapart hstart hleft
    rw [orphaned_cons]
    by_cases hfirst : p.Abandons config domain
    · obtain ⟨-, hnew, -⟩ := habandons.1 hfirst
      exact Or.inr (Or.inl ⟨hfirst, ((hrest.sticks hapart hnew).1 hleft).2⟩)
    · exact (hrest.clean hapart (hnext hapart hstart hfirst) hleft).imp_right Or.inr
  · intro hapart horphaned
    rcases orphaned_cons.1 horphaned with ⟨hfirst, hspared⟩ | horphaned
    · obtain ⟨-, hnew, hleft⟩ := habandons.1 hfirst
      exact ⟨get?_ne_none_of_keeps hrest.keeps hnew, (hrest.sticks hapart hnew).2 ⟨hleft, hspared⟩⟩
    · exact hrest.orphan hapart horphaned
  · intro hapart hstart q hq hqabandons
    rcases List.mem_cons.1 hq with rfl | hq
    · intro hadmits
      obtain ⟨-, hnew, hleft⟩ := habandons.1 hqabandons
      rcases (hcalm hadmits).clean (hapart.of_keeps hrest.keeps) hstart hleft with
        hlegacy | ⟨-, -, hdisturbs⟩
      · exact hnew hlegacy.2
      · exact Regime.not_disturbs_calm hdisturbs
    · refine hrest.faulty hapart (hnext hapart hstart fun hfirst => ?_) q hq hqabandons
      exact (habandons.1 hfirst).2.1 (hrest.once q hq hqabandons)

end

section

-- Otherwise the elaborator tries to compute the name of an unknown input.
attribute [local irreducible] Manager.domainOf

theorem exists_course {view : Store.View} {manager : Manager} {env : Environment} {v : Versioned}
    {steps : List Step} {domain : String} (htable : manager.config.idScheme = .table)
    (hholds : view.Holds env.store v) (hsteps : ∀ step ∈ steps, step.operation.Concerns domain)
    (hadmits : ∀ step ∈ steps, (Regime.rough False).Admits step.schedule) :
    ∃ manager' env' v', runAll steps manager env = some (manager', env')
      ∧ view.Holds env'.store v' ∧ manager'.config = manager.config
      ∧ Course manager.config domain env.engine v.state (passages steps manager env) env'.engine
          v'.state := by
  induction steps generalizing manager env v with
  | nil => exact ⟨manager, env, v, rfl, hholds, rfl, .nil⟩
  | cons step rest ih =>
    have hconcerns := hsteps step (List.mem_cons_self ..)
    -- The step is the same under either regime, but more is known of it if nothing can fail.
    obtain ⟨manager₁, env₁, v₁, hrun, hheld, hconfig, hpasses⟩ :=
      (guarantees_program_passes (w := ⟨env.engine, v, []⟩) hconcerns htable
        (Regime.quiet_rough False) id).exists_run (env.at step.time step.schedule) hholds
        (hadmits step (List.mem_cons_self ..))
    have hcalm : Regime.calm.Admits step.schedule →
        Passes .calm manager.config domain env.engine v.state env₁.engine v₁.state := by
      intro hcalm
      obtain ⟨_, _, v₂, hrun', hheld', -, hpasses'⟩ :=
        (guarantees_program_passes (w := ⟨env.engine, v, []⟩) hconcerns htable
          Regime.quiet_calm id).exists_run (env.at step.time step.schedule) hholds hcalm
      cases hrun.symm.trans hrun'
      have hsame : v₂ = v₁ :=
        Except.ok.inj ((view.load hheld').1.symm.trans (view.load hheld).1)
      exact hsame ▸ hpasses'
    obtain ⟨manager', env', v', hrest, hheld', hconfig', hcourse⟩ :=
      ih (hconfig ▸ htable) hheld (fun s hs => hsteps s (List.mem_cons_of_mem _ hs))
        (fun s hs => hadmits s (List.mem_cons_of_mem _ hs))
    rw [hconfig] at hcourse
    refine ⟨manager', env', v', ?_, hheld', hconfig'.trans hconfig, ?_⟩
    · rw [runAll, Step.perform, hrun]
      exact hrest
    · rw [passages, Step.perform, hrun]
      exact .cons (abandons_iff hholds hheld) (overruns_iff hholds hheld) hpasses hcalm hcourse

theorem guarantees_block {regime : Regime} {manager : Manager} {w : World} {input domain : String}
    (htable : manager.config.idScheme = .table) (hquiet : regime.Quiet)
    (hanswered : ¬ regime.hangs) (hdomain : Manager.domainOf input = .ok domain) :
    Guarantees regime (fun _ => False) (manager.setDomainBlocking input true) w
      fun outcome after => outcome.2 = manager.forget
        ∧ ∀ t, outcome.1 = .ok t → after.engine = blocked w.engine w.state domain
          ∧ after.state.overrideIds = w.state.overrideIds := by
  rw [guarantees_setDomainBlocking hdomain, toggle, if_pos rfl]
  refine guarantees_unexempt htable hquiet (fun result after hend => ⟨rfl, fun t ht => ?_⟩)
    fun _ hhangs => absurd hhangs hanswered
  cases hend with
  | done now hafter => exact ⟨hafter.engine, by rw [hafter.state]; rfl⟩
  | failed _ _ _ _ => cases ht
  | uncommitted _ _ _ _ => cases ht
  | reinstated _ _ _ _ _ _ => cases ht
  | lost _ _ _ _ _ _ _ => cases ht

/-- A domain is exempted without a pair. After any run of restorations and toggles of it, each of
whose calls may fail, it is blocked. Then no rule stands at its pair, and one of its rules stands at
its hashed ids iff a step of the run gave it its pair and left such a rule, which no later step took
away. Something fails in a step that leaves one, and a step takes it away only if the hashed ids of
the domain collide with those of another one that is migrated. -/
theorem hashedLeft_after_block {view : Store.View} {manager : Manager} {env : Environment}
    {v : Versioned} (steps : List Step) {input domain : String} {schedule : Schedule}
    (time : UInt64) (htable : manager.config.idScheme = .table)
    (hholds : view.Holds env.store v) (hlegacy : Legacy v.state domain)
    (hsteps : ∀ step ∈ steps, step.operation.Concerns domain)
    (hadmits : ∀ step ∈ steps, (Regime.rough False).Admits step.schedule)
    (hdomain : Manager.domainOf input = .ok domain)
    (hlast : (Regime.rough False).Admits schedule) :
    ∃ manager' env' result last v',
      runAll steps manager env = some (manager', env')
      ∧ (env'.at time schedule).run (manager'.setDomainBlocking input true)
          = (some (result, manager'.forget), last)
      ∧ view.Holds last.store v'
      ∧ ∀ t, result = .ok t → Apart v'.state domain →
        (∀ ids, v'.state.overrideIds.get? domain = some ids →
            ∀ id ∈ ids.toList, last.engine.rule? id = none)
        ∧ (HashedLeft manager.config last.engine domain
            ↔ Orphaned manager.config domain (passages steps manager env))
        ∧ (∀ p ∈ passages steps manager env, p.Abandons manager.config domain →
            ¬ Regime.calm.Admits p.step.schedule)
        ∧ ∀ p ∈ passages steps manager env, p.Overruns manager.config domain →
            Collides v.state v'.state domain := by
  obtain ⟨manager', env', v₁, hrun, hheld, hconfig, hcourse⟩ :=
    exists_course htable hholds hsteps hadmits
  obtain ⟨⟨result, manager''⟩, last, v', hblock, hheld', rfl, hend⟩ :=
    (guarantees_block (w := ⟨env'.engine, v₁, []⟩) (hconfig ▸ htable)
      (Regime.quiet_rough False) id hdomain).exists_run (env'.at time schedule) hheld hlast
  refine ⟨manager', env', result, last, v', hrun, hblock, hheld', fun t ht hapart => ?_⟩
  obtain ⟨hengine, hsame⟩ := hend t ht
  have hengine : last.engine = blocked env'.engine v₁.state domain := hengine
  have hsame : v'.state.overrideIds = v₁.state.overrideIds := hsame
  have hapart : Apart v₁.state domain := fun other p hp => hapart other p (hsame ▸ hp)
  rw [hengine]
  -- The last operation clears the hashed ids of a domain without a pair, and no others.
  refine ⟨?_, ?_, hcourse.faulty hapart fun _ => hlegacy, ?_⟩
  · intro ids hids id hid
    rw [hsame] at hids
    rw [blocked_of_touchedIds_eq_some (touchedIds_of_get?_eq_some hids),
      Engine.rule?_removeRules, if_pos hid]
  · by_cases hlegacy' : Legacy v₁.state domain
    · refine iff_of_false (not_hashedLeft_blocked hlegacy') fun horphaned => ?_
      exact (hcourse.orphan hapart horphaned).1 hlegacy'.2
    · rw [hashedLeft_blocked hapart hlegacy']
      exact ⟨fun hleft => (hcourse.clean hapart (fun _ => hlegacy) hleft).resolve_left hlegacy',
        fun horphaned => (hcourse.orphan hapart horphaned).2⟩
  · intro p hp hoverruns
    obtain ⟨other, hne, hother, hnew, hoverlaps⟩ := hcourse.collides p hp hoverruns
    exact ⟨other, hne, hother, hsame ▸ hnew, hoverlaps⟩

end

/-! ## A domain without a pair -/

/-- One domain is exempted without a pair. -/
def legacyState : PersistedState :=
  { PersistedState.initial with exemptedDomains := ["old.com"] }

/-- The rules of the domain stand at its hashed ids. -/
def legacyEngine : Engine where
  rulesets := .ofList [("ruleset_1", true)]
  sessionRules := .ofList ((pairRules .standard "old.com" (.hashed "old.com")).map fun rule =>
    (rule.id, rule))

/-- Surroundings that hold both. -/
def legacyEnvironment : Environment :=
  ⟨legacyEngine, .memory ⟨⟨1, legacyState⟩⟩, 0, .faultless, []⟩

theorem legacy_legacyState : Legacy legacyState "old.com" := ⟨rfl, rfl⟩

/-- A restoration without failures migrates the domain, and blocking it leaves nothing. -/
theorem not_hashedLeft_after_restore :
    ∃ manager' env' result last v',
      runAll [⟨.restore, 0, .faultless⟩] ⟨.standard, .new 1000⟩ legacyEnvironment
          = some (manager', env')
      ∧ (env'.at 0 .faultless).run (manager'.setDomainBlocking "old.com" true)
          = (some (result, manager'.forget), last)
      ∧ Store.View.memory.Holds last.store v'
      ∧ ∀ t, result = .ok t → Apart v'.state "old.com" →
        ¬ HashedLeft .standard last.engine "old.com" := by
  have hholds : Store.View.memory.Holds legacyEnvironment.store ⟨1, legacyState⟩ := rfl
  have htable : (Manager.config ⟨.standard, .new 1000⟩).idScheme = .table := rfl
  have hdomain : Manager.domainOf "old.com" = .ok "old.com" := rfl
  have hfaultless := Regime.admits_faultless (.rough False)
  obtain ⟨manager', env', result, last, v', hrun, hblock, hheld, hend⟩ :=
    hashedLeft_after_block [⟨.restore, 0, .faultless⟩] 0 htable hholds legacy_legacyState
      (by simp [Operation.Concerns]) (by simpa using hfaultless) hdomain hfaultless
  refine ⟨manager', env', result, last, v', hrun, hblock, hheld, fun t ht hapart => ?_⟩
  obtain ⟨-, hiff, hfaulty, -⟩ := hend t ht hapart
  rw [hiff]
  rintro ⟨earlier, p, later, hsplit, habandons, -⟩
  have hp : p ∈ passages [⟨.restore, 0, .faultless⟩] ⟨.standard, .new 1000⟩ legacyEnvironment := by
    rw [hsplit]
    exact List.mem_append_right _ (List.mem_cons_self ..)
  refine hfaulty p hp habandons ?_
  rw [List.mem_singleton.1 (step_mem_of_mem_passages hp)]
  exact Regime.admits_faultless _

/-- The domain gets its pair, and then its hashed ids cannot be cleared. -/
def failedRemoval : Step :=
  ⟨.toggle "old.com" false, 0, Schedule.faultless.set .removeRules [.unavailable]⟩

/-- Whether a run has ended well, with one pair in the table and a rule still at the hashed ids. -/
def leavesHashed : Option (Option (Except OverrideError Transition × Manager) × Environment) → Bool
  | some (some (.ok _, _), last) =>
    decide (last.persisted?.map (·.overrideIds.toList)
      = some [("old.com", ⟨16777216, 16777217⟩)])
    && decide (last.engine.rule? 1380537030
      = some (.allowInitiator 1380537030 1000000 "old.com"))
  | _ => false

/-- Blocking the domain then leaves its rules where they are. -/
theorem hashedLeft_of_failedRemoval :
    Legacy legacyState "old.com"
      ∧ (∀ rule ∈ pairRules .standard "old.com" (.hashed "old.com"),
          legacyEngine.rule? rule.id = some rule)
      ∧ ∃ manager' env' t manager'' last state,
        runAll [failedRemoval] ⟨.standard, .new 1000⟩ legacyEnvironment = some (manager', env')
        ∧ (env'.at 0 .faultless).run (manager'.setDomainBlocking "old.com" true)
            = (some (.ok t, manager''), last)
        ∧ last.persisted? = some state
        ∧ Apart state "old.com"
        ∧ HashedLeft .standard last.engine "old.com" := by
  refine ⟨legacy_legacyState, by decide +kernel, ?_⟩
  have hcheck : leavesHashed ((runAll [failedRemoval] ⟨.standard, .new 1000⟩ legacyEnvironment).map
      fun after => (after.2.at 0 .faultless).run
        (after.1.setDomainBlocking "old.com" true)) = true := by
    decide +kernel
  generalize runAll [failedRemoval] ⟨.standard, .new 1000⟩ legacyEnvironment = outcome at hcheck ⊢
  cases outcome with
  | none => cases hcheck
  | some after =>
    obtain ⟨manager', env'⟩ := after
    rw [Option.map_some] at hcheck
    unfold leavesHashed at hcheck
    split at hcheck
    · rename_i t manager'' last hrun
      rw [Bool.and_eq_true, decide_eq_true_eq, decide_eq_true_eq] at hcheck
      obtain ⟨htable, hrule⟩ := hcheck
      obtain ⟨state, hstate, htable⟩ := Option.map_eq_some_iff.1 htable
      refine ⟨manager', env', t, manager'', last, state, rfl, Option.some.inj hrun, hstate, ?_,
        ⟨_, mem_pairRules.2 (Or.inl rfl), hrule⟩⟩
      intro other ids hids
      rw [IdTable.get?, ← Std.ExtTreeMap.mem_toList_iff_getElem?_eq_some] at hids
      have hmem : (other, ids) ∈ state.overrideIds.toList := hids
      rw [htable, List.mem_singleton] at hmem
      cases hmem
      have hhashed : (IdPair.hashed "old.com").toList = [1380537030, 1380537031] := by decide
      rw [hhashed]
      simp [IdPair.toList]
    · cases hcheck

end Blocklist.Override
