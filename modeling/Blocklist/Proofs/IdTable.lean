import Blocklist.IdTable

set_option autoImplicit false

/-! # The table keeps its pairs apart

`IdTable.WellFormed` is what handing out pairs keeps to: every pair is adjacent and free of the
reserved id 0, pairs of different domains share no id, and new pairs come from above the old ones
(or from nowhere, once the largest id is handed out). Reserving ids and allocating pairs preserve
it, and neither takes a pair away from a domain. -/

namespace Blocklist

namespace IdPair

/-- A pair as the table hands it out: two adjacent ids, neither of them 0. -/
structure Proper (ids : IdPair) : Prop where
  incoming_ne_zero : ids.incoming ≠ 0
  outgoing_ne_zero : ids.outgoing ≠ 0
  adjacent : ids.outgoing = ids.incoming + 1

theorem Proper.incoming_ne_outgoing {ids : IdPair} (h : ids.Proper) :
    ids.incoming ≠ ids.outgoing := by
  have hadjacent := h.adjacent
  grind

@[simp]
theorem mem_toList {ids : IdPair} {id : UInt32} :
    id ∈ ids.toList ↔ id = ids.incoming ∨ id = ids.outgoing := by
  simp [toList]

theorem overlaps_eq_true_iff {a b : IdPair} :
    a.overlaps b = true ↔ ∃ id ∈ a.toList, id ∈ b.toList := by
  simp only [overlaps, List.any_eq_true, List.contains_iff_mem]

end IdPair

namespace IdTable

/-- What reserving ids and allocating pairs keep to. -/
structure WellFormed (table : IdTable) : Prop where
  next_ne_zero : table.next ≠ 0
  proper : ∀ {domain ids}, table.get? domain = some ids → ids.Proper
  /-- New pairs come from above the old ones, unless there are no more. -/
  below : ∀ {domain ids}, table.get? domain = some ids →
    ids.outgoing < table.next ∨ table.next = maxRuleId
  disjoint : ∀ {a b p q}, table.get? a = some p → table.get? b = some q → a ≠ b →
    ∀ id ∈ p.toList, id ∉ q.toList

/-! ## A new table -/

@[simp]
theorem get?_new (base : UInt32) (domain : String) : (new base).get? domain = none := by
  simp [new, get?]

theorem max_eq_ite (a b : UInt32) : max a b = if a ≤ b then b else a := rfl

theorem wellFormed_new (base : UInt32) : (new base).WellFormed where
  next_ne_zero := by
    show max base 1 ≠ 0
    rw [max_eq_ite]
    grind
  proper h := by simp at h
  below h := by simp at h
  disjoint h := by simp at h

theorem get?_eq_none_of_isEmpty {table : IdTable} (h : table.isEmpty = true) (domain : String) :
    table.get? domain = none := by
  have hentries : table.entries = ∅ := Std.ExtTreeMap.isEmpty_iff.1 h
  simp [get?, hentries]

theorem mem_domains {table : IdTable} {domain : String} :
    domain ∈ table.domains ↔ ∃ ids, table.get? domain = some ids := by
  rw [domains, Std.ExtTreeMap.mem_keys, Std.ExtTreeMap.mem_iff_isSome_getElem?,
    Option.isSome_iff_exists]
  rfl

/-- The domains are in strictly increasing order. -/
theorem pairwise_domains (table : IdTable) : table.domains.Pairwise (· < ·) := by
  have hordered : table.domains.Pairwise fun a b => compare a b = .lt :=
    Std.ExtTreeMap.ordered_keys
  exact hordered.imp compareOfLessAndEq_eq_lt.1

/-! ## Refusals -/

/-- A table that cannot make room stays as it is. -/
theorem makeRoom_refused {table after : IdTable} {maxStatic : UInt32} {e : IdError}
    (h : table.makeRoom maxStatic = (.error e, after)) : after = table := by
  unfold makeRoom at h
  split at h
  · cases h
    rfl
  split at h
  · cases h
  split at h
  · cases h
    rfl
  · cases h

/-- A table that has no pair to give stays as it is. -/
theorem handOut_refused {table after : IdTable} {domain : String} {e : IdError}
    (h : table.handOut domain = (.error e, after)) : after = table := by
  unfold handOut at h
  split at h
  · cases h
  split at h
  · cases h
    rfl
  · cases h

theorem makeRoom_cases (table : IdTable) (maxStatic : UInt32) :
    (∃ after, table.reserveAbove maxStatic = .ok after
        ∧ table.makeRoom maxStatic = (.ok (), after))
      ∨ ∃ e, table.reserveAbove maxStatic = .error e
        ∧ table.makeRoom maxStatic = (.error e, table) := by
  rw [reserveAbove]
  cases hcall : table.makeRoom maxStatic with
  | mk result after =>
    cases result with
    | ok => exact Or.inl ⟨after, rfl, rfl⟩
    | error e => exact Or.inr ⟨e, rfl, by rw [makeRoom_refused hcall]⟩

theorem handOut_cases (table : IdTable) (domain : String) :
    (∃ ids after, table.allocate domain = .ok (ids, after)
        ∧ table.handOut domain = (.ok ids, after))
      ∨ ∃ e, table.allocate domain = .error e ∧ table.handOut domain = (.error e, table) := by
  rw [allocate]
  cases hcall : table.handOut domain with
  | mk result after =>
    cases result with
    | ok ids => exact Or.inl ⟨ids, after, rfl, rfl⟩
    | error e => exact Or.inr ⟨e, rfl, by rw [handOut_refused hcall]⟩

theorem makeRoom_eq_ok_iff {table after : IdTable} {maxStatic : UInt32} :
    table.makeRoom maxStatic = (.ok (), after) ↔ table.reserveAbove maxStatic = .ok after := by
  rcases table.makeRoom_cases maxStatic with ⟨_, hview, hcall⟩ | ⟨_, hview, hcall⟩
  · simp [hview, hcall]
  · simp [hview, hcall]

theorem handOut_eq_ok_iff {table after : IdTable} {domain : String} {ids : IdPair} :
    table.handOut domain = (.ok ids, after) ↔ table.allocate domain = .ok (ids, after) := by
  rcases table.handOut_cases domain with ⟨_, _, hview, hcall⟩ | ⟨_, hview, hcall⟩
  · simp [hview, hcall]
  · simp [hview, hcall]

/-! ## Reserving -/

/-- Reserving ids changes no entry, and `next` only grows. -/
theorem entries_of_reserveAbove {table after : IdTable} {maxStatic : UInt32}
    (h : table.reserveAbove maxStatic = .ok after) :
    after.entries = table.entries ∧ table.next ≤ after.next := by
  rw [← makeRoom_eq_ok_iff, makeRoom] at h
  split at h
  · cases h
  split at h
  · cases h
    exact ⟨rfl, UInt32.le_refl _⟩
  split at h
  · cases h
  · cases h
    refine ⟨rfl, ?_⟩
    show table.next ≤ max table.next (maxStatic + 1)
    rw [max_eq_ite]
    grind

/-- Once ids are reserved, the least id that may be handed out is above them. -/
theorem lt_base_of_reserveAbove {table after : IdTable} {maxStatic : UInt32}
    (h : table.reserveAbove maxStatic = .ok after) (hbase : table.base ≤ table.next) :
    maxStatic < after.base ∧ after.base ≤ after.next := by
  rw [← makeRoom_eq_ok_iff, makeRoom] at h
  split at h
  · cases h
  split at h
  · rename_i hlt
    cases h
    exact ⟨hlt, hbase⟩
  split at h
  · cases h
  · rename_i hroom
    cases h
    refine ⟨?_, ?_⟩
    · unfold maxRuleId at hroom
      show maxStatic < maxStatic + 1
      grind
    · show maxStatic + 1 ≤ max table.next (maxStatic + 1)
      rw [max_eq_ite]
      grind

theorem get?_of_reserveAbove {table after : IdTable} {maxStatic : UInt32}
    (h : table.reserveAbove maxStatic = .ok after) (domain : String) :
    after.get? domain = table.get? domain := by
  rw [get?, get?, (entries_of_reserveAbove h).1]

theorem WellFormed.reserveAbove {table after : IdTable} {maxStatic : UInt32}
    (hw : table.WellFormed) (h : table.reserveAbove maxStatic = .ok after) : after.WellFormed := by
  have hget := get?_of_reserveAbove h
  have hnext := (entries_of_reserveAbove h).2
  have hzero := hw.next_ne_zero
  constructor
  -- `next` does not shrink, so it stays above the pairs and above 0.
  · grind
  · intro domain ids hids
    exact hw.proper (hget domain ▸ hids)
  · intro domain ids hids
    have hbelow := hw.below (hget domain ▸ hids)
    unfold maxRuleId at *
    grind
  · intro a b p q ha hb
    exact hw.disjoint (hget a ▸ ha) (hget b ▸ hb)

/-! ## Allocating -/

/-- Allocating gives the domain its pair and leaves the other domains theirs. -/
theorem get?_of_allocate {table after : IdTable} {domain : String} {ids : IdPair}
    (h : table.allocate domain = .ok (ids, after)) (other : String) :
    after.get? other = if domain = other then some ids else table.get? other := by
  rw [← handOut_eq_ok_iff, handOut] at h
  split at h
  · rename_i known hknown
    cases h
    split
    · rename_i heq
      rw [← heq, hknown]
    · rfl
  split at h
  · cases h
  · cases h
    show (table.entries.insert domain _)[other]? = _
    rw [Std.ExtTreeMap.getElem?_insert]
    simp only [Std.compare_eq_iff_eq]
    rfl

/-- A new pair starts at `next`; the next one comes from above it, if there is one. -/
theorem allocate_eq_ok_of_get?_eq_none {table after : IdTable} {domain : String} {ids : IdPair}
    (hnew : table.get? domain = none) (h : table.allocate domain = .ok (ids, after)) :
    table.next ≠ maxRuleId ∧ ids = ⟨table.next, table.next + 1⟩
      ∧ (ids.outgoing < after.next ∨ after.next = maxRuleId) := by
  rw [← handOut_eq_ok_iff, handOut] at h
  rw [hnew] at h
  simp only at h
  split at h
  · cases h
  · rename_i hroom
    cases h
    refine ⟨hroom, rfl, ?_⟩
    simp only
    split
    · exact Or.inr rfl
    · -- `next` moves by two, which does not wrap around below the largest id.
      rename_i hlast
      left
      unfold maxRuleId at hlast
      grind

/-- A new pair is not below the base, and the next one is not either. -/
theorem base_le_of_allocate {table after : IdTable} {domain : String} {ids : IdPair}
    (hnew : table.get? domain = none) (h : table.allocate domain = .ok (ids, after))
    (hbase : table.base ≤ table.next) :
    table.base ≤ ids.incoming ∧ table.base ≤ ids.outgoing ∧ after.base ≤ after.next := by
  obtain ⟨hroom, rfl, hnext⟩ := allocate_eq_ok_of_get?_eq_none hnew h
  have hafter : after.base = table.base := by
    rw [← handOut_eq_ok_iff, handOut] at h
    rw [hnew] at h
    simp only [if_neg hroom] at h
    cases h
    rfl
  unfold maxRuleId at hroom hnext
  refine ⟨hbase, ?_, ?_⟩
  · show table.base ≤ table.next + 1
    grind
  · rw [hafter]
    grind

theorem WellFormed.allocate {table after : IdTable} {domain : String} {ids : IdPair}
    (hw : table.WellFormed) (hnew : table.get? domain = none)
    (h : table.allocate domain = .ok (ids, after)) : after.WellFormed := by
  have hget := get?_of_allocate h
  obtain ⟨hroom, rfl, hnext⟩ := allocate_eq_ok_of_get?_eq_none hnew h
  have hzero := hw.next_ne_zero
  -- The new pair lies above every pair that was there before.
  have habove : ∀ {other p}, table.get? other = some p → p.outgoing < table.next := fun hp =>
    (hw.below hp).resolve_right hroom
  have hapart : ∀ {other p}, table.get? other = some p → ∀ id ∈ p.toList,
      id ≠ table.next ∧ id ≠ table.next + 1 := by
    intro other p hp id hid
    have hlt := habove hp
    have hproper := hw.proper hp
    have hadjacent := hproper.adjacent
    have houtgoing := hproper.outgoing_ne_zero
    unfold maxRuleId at hroom
    rw [IdPair.mem_toList] at hid
    grind
  constructor
  · unfold maxRuleId at *
    grind
  · intro other p hp
    rw [hget] at hp
    split at hp
    · cases hp
      refine ⟨hzero, ?_, rfl⟩
      unfold maxRuleId at hroom
      show table.next + 1 ≠ 0
      grind
    · exact hw.proper hp
  · intro other p hp
    rw [hget] at hp
    split at hp
    · cases hp
      exact hnext
    · have hlt := habove hp
      unfold maxRuleId at *
      grind
  · intro a b p q ha hb hab id hp hq
    rw [hget] at ha hb
    split at ha <;> split at hb
    · rename_i hda hdb
      exact hab (hda.symm.trans hdb)
    · cases ha
      rw [IdPair.mem_toList] at hp
      exact hp.elim (hapart hb id hq).1 (hapart hb id hq).2
    · cases hb
      rw [IdPair.mem_toList] at hq
      exact hq.elim (hapart ha id hp).1 (hapart ha id hp).2
    · exact hw.disjoint ha hb hab id hp hq

end IdTable

end Blocklist
