import Blocklist.Proofs.Restore

set_option autoImplicit false

/-! # Engines that mirror the state

An engine mirrors the state if its session rules are the pairs of the exempted domains and nothing
else. The lemmas follow the mirror through the grant of a pair, its removal and its installation,
for tables that keep their pairs apart. -/

namespace Blocklist.Override

/-- An exempted domain and its pair. -/
def Owns (state : PersistedState) (domain : String) (ids : IdPair) : Prop :=
  state.isExempted domain = true ∧ state.overrideIds.get? domain = some ids

/-- Every exempted domain has a pair. -/
def Covered (state : PersistedState) : Prop :=
  ∀ domain, state.isExempted domain = true → ∃ ids, state.overrideIds.get? domain = some ids

/-- The session rules are the pairs of the exempted domains and nothing else. -/
def Mirrors (config : Config) (engine : Engine) (state : PersistedState) : Prop :=
  ∀ id rule, engine.rule? id = some rule
    ↔ ∃ domain ids, Owns state domain ids ∧ rule ∈ pairRules config domain ids ∧ rule.id = id

section

variable {config : Config} {engine : Engine} {state state' : PersistedState} {domain : String}
  {ids : IdPair} {stale : Option IdPair}

/-! ## Grants -/

/-- A domain without a pair was not exempted, so nothing of it is at its hashed ids. -/
theorem Covered.staleIds_eq_none (hcovered : Covered state)
    (hnew : state.overrideIds.get? domain = none) : staleIds state domain = none := by
  rw [staleIds, if_neg]
  intro hexempted
  obtain ⟨p, hp⟩ := hcovered domain hexempted
  cases hnew.symm.trans hp

theorem Covered.stale_eq_none (hcovered : Covered state)
    (h : Granted config domain state ids stale state') : stale = none := by
  cases h with
  | known => rfl
  | fresh hnew => exact hcovered.staleIds_eq_none hnew

/-- Blocking a domain clears its pair. -/
theorem Covered.touchedIds_eq (hcovered : Covered state) (domain : String) :
    touchedIds state domain = state.overrideIds.get? domain := by
  cases hids : state.overrideIds.get? domain with
  | some ids => exact touchedIds_of_get?_eq_some hids
  | none => rw [touchedIds_of_get?_eq_none hids, hcovered.staleIds_eq_none hids]

theorem Covered.granted (hcovered : Covered state)
    (h : Granted config domain state ids stale state') : Covered state' := by
  intro other hexempted
  rw [h.isExempted] at hexempted
  obtain ⟨p, hp⟩ := hcovered other hexempted
  exact ⟨p, h.get?_of_eq_some hp⟩

/-- A grant gives an exempted domain nothing that it did not have. -/
theorem Covered.owns_granted (hcovered : Covered state)
    (h : Granted config domain state ids stale state') (other : String) (p : IdPair) :
    Owns state' other p ↔ Owns state other p := by
  unfold Owns
  rw [h.isExempted]
  refine and_congr_right fun hexempted => ?_
  obtain ⟨q, hq⟩ := hcovered other hexempted
  rw [hq, h.get?_of_eq_some hq]

/-! ## Mirrors -/

theorem Mirrors.of_owns_iff (hmirrors : Mirrors config engine state)
    (howns : ∀ domain ids, Owns state' domain ids ↔ Owns state domain ids) :
    Mirrors config engine state' := by
  intro id rule
  simp only [hmirrors id rule, howns]

/-- What one domain owns is not at the ids of another. -/
theorem Owns.id_not_mem (howns : Owns state domain ids) (hw : state.overrideIds.WellFormed)
    {other : String} {p : IdPair} (hp : state.overrideIds.get? other = some p)
    (hne : domain ≠ other) {rule : Rule} (hrule : rule ∈ pairRules config domain ids) :
    rule.id ∉ p.toList :=
  hw.disjoint howns.2 hp hne _ (id_mem_of_mem_pairRules hrule)

theorem Mirrors.removeRules (hmirrors : Mirrors config engine state)
    (hw : state.overrideIds.WellFormed) (hids : state.overrideIds.get? domain = some ids)
    (howns : ∀ other p, Owns state' other p ↔ other ≠ domain ∧ Owns state other p) :
    Mirrors config (engine.removeRules ids.toList) state' := by
  intro id rule
  rw [Engine.rule?_removeRules]
  simp only [howns]
  constructor
  · intro h
    split at h
    · cases h
    · rename_i hid
      obtain ⟨other, p, hother, hrule, rfl⟩ := (hmirrors id rule).1 h
      -- A rule of the domain itself would stand at its pair, which is cleared.
      refine ⟨other, p, ⟨?_, hother⟩, hrule, rfl⟩
      rintro rfl
      have hp : p = ids := Option.some.inj (hother.2.symm.trans hids)
      exact hid (hp ▸ id_mem_of_mem_pairRules hrule)
  · rintro ⟨other, p, ⟨hne, hother⟩, hrule, rfl⟩
    rw [if_neg (hother.id_not_mem hw hids hne hrule)]
    exact (hmirrors _ rule).2 ⟨other, p, hother, hrule, rfl⟩

theorem Mirrors.installed {engine' : Engine} (hmirrors : Mirrors config engine state)
    (hw : state.overrideIds.WellFormed) (hids : state.overrideIds.get? domain = some ids)
    (hinstalled : Installed config domain ids none engine engine')
    (howns : ∀ other p, Owns state' other p ↔ other = domain ∧ p = ids ∨ Owns state other p) :
    Mirrors config engine' state' := by
  intro id rule
  rw [hinstalled.rule?_iff]
  simp only [howns, clearedIds_none]
  constructor
  · rintro (⟨hrule, rfl⟩ | ⟨-, h⟩)
    · exact ⟨domain, ids, Or.inl ⟨rfl, rfl⟩, hrule, rfl⟩
    · obtain ⟨other, p, hother, hrule, rfl⟩ := (hmirrors id rule).1 h
      exact ⟨other, p, Or.inr hother, hrule, rfl⟩
  · rintro ⟨other, p, hother, hrule, rfl⟩
    by_cases heq : other = domain
    · subst heq
      have hp : p = ids := by
        rcases hother with ⟨-, hp⟩ | hother
        · exact hp
        · exact Option.some.inj (hother.2.symm.trans hids)
      exact Or.inl ⟨hp ▸ hrule, rfl⟩
    · have hother := hother.resolve_left fun h => heq h.1
      exact Or.inr ⟨hother.id_not_mem hw hids heq hrule,
        (hmirrors _ rule).2 ⟨other, p, hother, hrule, rfl⟩⟩

end

end Blocklist.Override
