import Blocklist.Proofs.IdTable
import Mathlib.Algebra.Group.Nat.Defs

set_option autoImplicit false

/-! # What a table of ids promises

A table is asked for pairs and for room above the ids of compiled rules, in any order, and refuses
what it cannot do. `Grounded` is what every table keeps to that started empty: pairs are adjacent,
apart from each other and not below the base. `GrowsTo` is all that a request does to a table, and
`Answers` says which requests are refused and what the others give, in whole numbers, so that
nothing wraps around at the end of the ids. The main result puts them together for any requests
(`promises_kept`); above the ids that were reserved once, all pairs stay
(`Grounded.lt_of_reserved`). -/

namespace Blocklist.IdTable

/-! ## Requests -/

/-- What a table can be asked for. -/
inductive Request where
  /-- The pair of a domain. -/
  | allocate (domain : String)
  /-- That new pairs are above the ids up to `maxStatic`. -/
  | reserve (maxStatic : UInt32)
deriving DecidableEq, Repr

/-- Whether a request is granted or why not, and the table after it. -/
def attempt (table : IdTable) : Request → Except IdError Unit × IdTable
  | .allocate domain =>
    let (result, after) := table.handOut domain
    (result.map fun _ => (), after)
  | .reserve maxStatic => table.makeRoom maxStatic

/-- The table after a request. -/
def serve (table : IdTable) (request : Request) : IdTable :=
  (table.attempt request).2

/-- The table after requests, one after another. -/
def serveAll (table : IdTable) (requests : List Request) : IdTable :=
  requests.foldl serve table

/-- A table without entries, with a base of its own or the usual one. -/
def start (base? : Option UInt32) : IdTable :=
  base?.elim default new

/-! ## Promises -/

/-- What a table keeps to whatever it is asked. -/
structure Grounded (table : IdTable) : Prop extends table.WellFormed where
  one_le_base : 1 ≤ table.base
  base_le_next : table.base ≤ table.next
  base_le : ∀ {domain ids}, table.get? domain = some ids → ∀ id ∈ ids.toList, table.base ≤ id

/-- What a table becomes: the base and the next id do not fall, and pairs stay. -/
structure GrowsTo (table later : IdTable) : Prop where
  base_le : table.base ≤ later.base
  next_le : table.next ≤ later.next
  keeps : ∀ {domain ids}, table.get? domain = some ids → later.get? domain = some ids

/-- Which requests a table refuses, and what it makes of the others. -/
structure Answers (table : IdTable) : Prop where
  allocate_refused : ∀ domain, (∃ e, (table.handOut domain).1 = .error e)
    ↔ table.get? domain = none ∧ table.next.toNat = 2 ^ 32 - 1
  reserve_refused : ∀ maxStatic, (∃ e, (table.makeRoom maxStatic).1 = .error e)
    ↔ (∃ domain ids, table.get? domain = some ids ∧ ∃ id ∈ ids.toList, id ≤ maxStatic)
      ∨ maxStatic.toNat = 2 ^ 32 - 1
  /-- A refused request changes nothing. -/
  serve_refused : ∀ request e, (table.attempt request).1 = .error e → table.serve request = table
  allocate_known : ∀ domain ids, table.get? domain = some ids →
    table.handOut domain = (.ok ids, table)
  /-- A new pair starts at the next id, which moves by two as far as there are ids. -/
  allocate_new : ∀ domain ids after, table.get? domain = none →
    table.handOut domain = (.ok ids, after) →
    ids.incoming.toNat = table.next.toNat ∧ ids.outgoing.toNat = table.next.toNat + 1
      ∧ after.base = table.base ∧ after.next.toNat = min (table.next.toNat + 2) (2 ^ 32 - 1)
      ∧ ∀ other, after.get? other = if domain = other then some ids else table.get? other
  /-- Reserving lifts the base and the next id above the reserved ids. -/
  reserve_above : ∀ maxStatic after, table.makeRoom maxStatic = (.ok (), after) →
    after.base.toNat = max table.base.toNat (maxStatic.toNat + 1)
      ∧ after.next.toNat = max table.next.toNat (maxStatic.toNat + 1)
      ∧ after.entries = table.entries

/-! ## Refusals -/

theorem lowest_le_iff {ids : IdPair} {bound : UInt32} :
    ids.lowest ≤ bound ↔ ∃ id ∈ ids.toList, id ≤ bound := by
  rw [IdPair.lowest, Std.min_le]
  simp

/-- A pair stands in the way of a reservation iff one of its ids does. -/
theorem lowest?_filter_isSome_iff {table : IdTable} {maxStatic : UInt32} :
    (table.lowest?.filter (· ≤ maxStatic)).isSome
      ↔ ∃ domain ids, table.get? domain = some ids ∧ ∃ id ∈ ids.toList, id ≤ maxStatic := by
  simp only [← lowest_le_iff, Option.isSome_iff_exists, Option.filter_eq_some_iff,
    decide_eq_true_eq]
  constructor
  · rintro ⟨lowest, hlowest, hle⟩
    obtain ⟨⟨domain, ids⟩, hentry, rfl⟩ := List.mem_map.1 (List.min?_mem hlowest)
    exact ⟨domain, ids, Std.ExtTreeMap.mem_toList_iff_getElem?_eq_some.1 hentry, hle⟩
  · rintro ⟨domain, ids, hids, hle⟩
    have hmem : ids.lowest ∈ table.toList.map (·.2.lowest) :=
      List.mem_map.2 ⟨(domain, ids), Std.ExtTreeMap.mem_toList_iff_getElem?_eq_some.2 hids, rfl⟩
    cases hlowest : table.lowest? with
    | none => rw [List.min?_eq_none_iff.1 hlowest] at hmem; cases hmem
    | some lowest =>
      exact ⟨lowest, rfl, UInt32.le_trans ((List.min?_eq_some_iff.1 hlowest).2 _ hmem) hle⟩

theorem toNat_maxRuleId : maxRuleId.toNat = 2 ^ 32 - 1 := rfl

theorem eq_maxRuleId_iff {id : UInt32} : id = maxRuleId ↔ id.toNat = 2 ^ 32 - 1 := by
  rw [← UInt32.toNat_inj, toNat_maxRuleId]

/-- Below the largest id, the next one is its successor. -/
theorem toNat_add_one {id : UInt32} (h : id ≠ maxRuleId) : (id + 1).toNat = id.toNat + 1 := by
  have hlt := id.toNat_lt
  rw [Ne, eq_maxRuleId_iff] at h
  rw [UInt32.toNat_add]
  exact Nat.mod_eq_of_lt (by simp; omega)

theorem toNat_max (a b : UInt32) : (max a b).toNat = max a.toNat b.toNat := by
  rw [max_eq_ite]
  split
  · rename_i hle
    rw [UInt32.le_iff_toNat_le] at hle
    omega
  · rename_i hle
    rw [UInt32.le_iff_toNat_le] at hle
    omega

theorem handOut_eq_error_iff {table : IdTable} {domain : String} :
    (∃ e, (table.handOut domain).1 = .error e)
      ↔ table.get? domain = none ∧ table.next.toNat = 2 ^ 32 - 1 := by
  rw [← eq_maxRuleId_iff, handOut]
  cases table.get? domain with
  | some ids => simp
  | none =>
    by_cases hlast : table.next = maxRuleId
    · simp [hlast]
    · simp [hlast]

theorem makeRoom_eq_error_iff {table : IdTable} {maxStatic : UInt32} :
    (∃ e, (table.makeRoom maxStatic).1 = .error e)
      ↔ (∃ domain ids, table.get? domain = some ids ∧ ∃ id ∈ ids.toList, id ≤ maxStatic)
        ∨ maxStatic.toNat = 2 ^ 32 - 1 := by
  rw [← lowest?_filter_isSome_iff, ← eq_maxRuleId_iff, makeRoom]
  cases table.lowest?.filter (· ≤ maxStatic) with
  | some lowest => simp
  | none =>
    by_cases hlt : maxStatic < table.base
    · -- No base is above the largest id.
      have hne : maxStatic ≠ maxRuleId := by
        unfold maxRuleId
        grind
      simp [hlt, hne]
    · rw [if_neg hlt]
      by_cases hlast : maxStatic = maxRuleId
      · simp [hlast]
      · simp [hlast]

/-! ## What requests give -/

theorem handOut_of_get?_eq_some {table : IdTable} {domain : String} {ids : IdPair}
    (h : table.get? domain = some ids) : table.handOut domain = (.ok ids, table) := by
  rw [handOut, h]

/-- A new pair in whole numbers. -/
theorem toNat_of_handOut {table after : IdTable} {domain : String} {ids : IdPair}
    (hnew : table.get? domain = none) (h : table.handOut domain = (.ok ids, after)) :
    ids.incoming.toNat = table.next.toNat ∧ ids.outgoing.toNat = table.next.toNat + 1
      ∧ after.base = table.base ∧ after.next.toNat = min (table.next.toNat + 2) (2 ^ 32 - 1) := by
  rw [handOut, hnew] at h
  by_cases hlast : table.next = maxRuleId
  · simp [hlast] at h
  · simp only [if_neg hlast, Except.ok.injEq, Prod.mk.injEq] at h
    obtain ⟨rfl, rfl⟩ := h
    have houtgoing := toNat_add_one hlast
    refine ⟨rfl, houtgoing, rfl, ?_⟩
    by_cases hend : table.next + 1 = maxRuleId
    · rw [if_pos hend, toNat_maxRuleId]
      rw [eq_maxRuleId_iff, houtgoing] at hend
      omega
    · have hlt := (table.next + 1 + 1).toNat_lt
      simp only [if_neg hend, toNat_add_one hend, houtgoing] at hlt ⊢
      omega

/-- A reservation in whole numbers. -/
theorem toNat_of_makeRoom {table after : IdTable} {maxStatic : UInt32}
    (hbase : table.base ≤ table.next) (h : table.makeRoom maxStatic = (.ok (), after)) :
    after.base.toNat = max table.base.toNat (maxStatic.toNat + 1)
      ∧ after.next.toNat = max table.next.toNat (maxStatic.toNat + 1)
      ∧ after.entries = table.entries := by
  rw [UInt32.le_iff_toNat_le] at hbase
  unfold makeRoom at h
  split at h
  · cases h
  split at h
  · rename_i hlt
    cases h
    rw [UInt32.lt_iff_toNat_lt] at hlt
    exact ⟨by omega, by omega, rfl⟩
  · rename_i hlt
    split at h
    · cases h
    · rename_i hlast
      cases h
      have hfloor := toNat_add_one hlast
      rw [UInt32.lt_iff_toNat_lt] at hlt
      refine ⟨?_, ?_, rfl⟩
      · show (maxStatic + 1).toNat = _
        omega
      · show (max table.next (maxStatic + 1)).toNat = _
        rw [toNat_max, hfloor]

/-! ## What requests keep to -/

theorem grounded_new (base : UInt32) : (new base).Grounded where
  toWellFormed := wellFormed_new base
  one_le_base := by
    show 1 ≤ max base 1
    rw [max_eq_ite]
    grind
  base_le_next := UInt32.le_refl _
  base_le h := by simp at h

theorem grounded_start (base? : Option UInt32) : (start base?).Grounded := by
  cases base? with
  | none => exact grounded_new defaultBase
  | some base => exact grounded_new base

theorem GrowsTo.refl (table : IdTable) : table.GrowsTo table :=
  ⟨UInt32.le_refl _, UInt32.le_refl _, id⟩

theorem GrowsTo.trans {table later last : IdTable} (h : table.GrowsTo later)
    (hlast : later.GrowsTo last) : table.GrowsTo last :=
  ⟨UInt32.le_trans h.base_le hlast.base_le, UInt32.le_trans h.next_le hlast.next_le,
    fun hids => hlast.keeps (h.keeps hids)⟩

variable {table after : IdTable} {domain : String} {ids : IdPair} {maxStatic : UInt32}

theorem GrowsTo.of_makeRoom (hbase : table.base ≤ table.next)
    (h : table.makeRoom maxStatic = (.ok (), after)) : table.GrowsTo after := by
  obtain ⟨hafter, hnext, -⟩ := toNat_of_makeRoom hbase h
  refine ⟨?_, ?_, fun hids => ?_⟩
  · rw [UInt32.le_iff_toNat_le]
    omega
  · rw [UInt32.le_iff_toNat_le]
    omega
  · rw [get?_of_reserveAbove (makeRoom_eq_ok_iff.1 h), hids]

theorem GrowsTo.of_handOut (h : table.handOut domain = (.ok ids, after)) :
    table.GrowsTo after := by
  cases hnew : table.get? domain with
  | some known =>
    cases (handOut_of_get?_eq_some hnew).symm.trans h
    exact .refl table
  | none =>
    obtain ⟨-, -, hbase, hnext⟩ := toNat_of_handOut hnew h
    have hlt := table.next.toNat_lt
    refine ⟨hbase ▸ UInt32.le_refl _, ?_, fun {other p} hp => ?_⟩
    · rw [UInt32.le_iff_toNat_le]
      omega
    · rw [get?_of_allocate (handOut_eq_ok_iff.1 h), if_neg, hp]
      rintro rfl
      cases hnew.symm.trans hp

/-- The base stays below the pairs: it is lifted only to where no pair stands in the way. -/
theorem Grounded.makeRoom (hg : table.Grounded)
    (h : table.makeRoom maxStatic = (.ok (), after)) : after.Grounded where
  toWellFormed := hg.toWellFormed.reserveAbove (makeRoom_eq_ok_iff.1 h)
  one_le_base := UInt32.le_trans hg.one_le_base (GrowsTo.of_makeRoom hg.base_le_next h).base_le
  base_le_next := (lt_base_of_reserveAbove (makeRoom_eq_ok_iff.1 h) hg.base_le_next).2
  base_le {domain ids} hids id hid := by
    rw [get?_of_reserveAbove (makeRoom_eq_ok_iff.1 h)] at hids
    have hbase := hg.base_le hids id hid
    have hway : ¬ id ≤ maxStatic := fun hle => by
      obtain ⟨e, he⟩ := makeRoom_eq_error_iff.2 (.inl ⟨domain, ids, hids, id, hid, hle⟩)
      rw [h] at he
      cases he
    rw [UInt32.le_iff_toNat_le] at hbase hway ⊢
    rw [(toNat_of_makeRoom hg.base_le_next h).1]
    omega

theorem Grounded.handOut (hg : table.Grounded)
    (h : table.handOut domain = (.ok ids, after)) : after.Grounded := by
  cases hnew : table.get? domain with
  | some known =>
    cases (handOut_of_get?_eq_some hnew).symm.trans h
    exact hg
  | none =>
    have hallocate := handOut_eq_ok_iff.1 h
    obtain ⟨hincoming, houtgoing, hafter⟩ := base_le_of_allocate hnew hallocate hg.base_le_next
    have hbase : after.base = table.base := (toNat_of_handOut hnew h).2.2.1
    refine ⟨hg.toWellFormed.allocate hnew hallocate, hbase ▸ hg.one_le_base, hafter, ?_⟩
    intro other p hp id hid
    rw [hbase]
    rw [get?_of_allocate hallocate] at hp
    split at hp
    · cases hp
      rcases IdPair.mem_toList.1 hid with rfl | rfl
      · exact hincoming
      · exact houtgoing
    · exact hg.base_le hp id hid

theorem serve_of_refused {request : Request} {e : IdError}
    (h : (table.attempt request).1 = .error e) : table.serve request = table := by
  cases request with
  | reserve maxStatic => exact makeRoom_refused (Prod.ext h rfl)
  | allocate domain =>
    rcases table.handOut_cases domain with ⟨ids, after, -, hcall⟩ | ⟨told, -, hcall⟩
    · rw [attempt, hcall] at h
      cases h
    · rw [serve, attempt, hcall]

theorem Grounded.answers (hg : table.Grounded) : table.Answers where
  allocate_refused _ := handOut_eq_error_iff
  reserve_refused _ := makeRoom_eq_error_iff
  serve_refused _ _ := serve_of_refused
  allocate_known _ _ := handOut_of_get?_eq_some
  allocate_new domain ids after hnew h := by
    obtain ⟨hincoming, houtgoing, hbase, hnext⟩ := toNat_of_handOut hnew h
    exact ⟨hincoming, houtgoing, hbase, hnext, get?_of_allocate (handOut_eq_ok_iff.1 h)⟩
  reserve_above _ _ h := toNat_of_makeRoom hg.base_le_next h

/-- One request. -/
theorem Grounded.serve (hg : table.Grounded) (request : Request) :
    (table.serve request).Grounded ∧ table.GrowsTo (table.serve request) := by
  cases request with
  | reserve maxStatic =>
    rcases table.makeRoom_cases maxStatic with ⟨after, -, hcall⟩ | ⟨e, -, hcall⟩
    · rw [IdTable.serve, attempt, hcall]
      exact ⟨hg.makeRoom hcall, .of_makeRoom hg.base_le_next hcall⟩
    · rw [IdTable.serve, attempt, hcall]
      exact ⟨hg, .refl table⟩
  | allocate domain =>
    rcases table.handOut_cases domain with ⟨ids, after, -, hcall⟩ | ⟨e, -, hcall⟩
    · rw [IdTable.serve, attempt, hcall]
      exact ⟨hg.handOut hcall, .of_handOut hcall⟩
    · rw [IdTable.serve, attempt, hcall]
      exact ⟨hg, .refl table⟩

/-- Any requests, by induction on them. -/
theorem Grounded.serveAll (hg : table.Grounded) (requests : List Request) :
    (table.serveAll requests).Grounded ∧ table.GrowsTo (table.serveAll requests) := by
  induction requests generalizing table with
  | nil => exact ⟨hg, .refl table⟩
  | cons request rest ih =>
    obtain ⟨hnext, hgrows⟩ := hg.serve request
    obtain ⟨hlast, hrest⟩ := ih hnext
    exact ⟨hlast, hgrows.trans hrest⟩

/-- Whatever is asked for after a reservation, all pairs are above the reserved ids. -/
theorem Grounded.lt_of_reserved (hg : table.Grounded)
    (h : table.makeRoom maxStatic = (.ok (), after)) (more : List Request)
    (hids : (after.serveAll more).get? domain = some ids) : ∀ id ∈ ids.toList, maxStatic < id := by
  obtain ⟨hlater, hgrows⟩ := (hg.makeRoom h).serveAll more
  have hfloor : maxStatic < (after.serveAll more).base :=
    UInt32.lt_of_lt_of_le (lt_base_of_reserveAbove (makeRoom_eq_ok_iff.1 h) hg.base_le_next).1
      hgrows.base_le
  exact fun id hid => UInt32.lt_of_lt_of_le hfloor (hlater.base_le hids id hid)

/-- After any requests to a table without entries, granted or refused, the table is grounded; it
answers the next request as it should, and only grows by further ones. Once ids are reserved, all
pairs then and later are above them. -/
theorem promises_kept (base? : Option UInt32) (requests : List Request) :
    let table := (start base?).serveAll requests
    table.Grounded ∧ table.Answers ∧ (∀ more, table.GrowsTo (table.serveAll more))
      ∧ ∀ maxStatic after, table.makeRoom maxStatic = (.ok (), after) →
        ∀ more domain ids, (after.serveAll more).get? domain = some ids →
          ∀ id ∈ ids.toList, maxStatic < id := by
  have hg := ((grounded_start base?).serveAll requests).1
  exact ⟨hg, hg.answers, fun more => (hg.serveAll more).2,
    fun maxStatic after h more domain ids hids => hg.lt_of_reserved h more hids⟩

/-- Room is left for one pair, and two domains ask for it. -/
def lastPair : List Request :=
  [.reserve 0xFFFFFFFD, .allocate "a.example", .allocate "b.example", .reserve 7]

/-- The first domain has the last pair, the second stays without one, and nothing wraps around to
the reserved ids. -/
theorem promises_kept_lastPair :
    let table := (start (some 10)).serveAll lastPair
    table.get? "a.example" = some ⟨0xFFFFFFFE, 0xFFFFFFFF⟩
      ∧ table.get? "b.example" = none ∧ table.next.toNat = 2 ^ 32 - 1
      ∧ (∃ e, (table.handOut "b.example").1 = .error e)
      ∧ (∃ after, (start (some 10)).makeRoom 0xFFFFFFFD = (.ok (), after))
      ∧ ∀ domain ids, table.get? domain = some ids → ∀ id ∈ ids.toList, 0xFFFFFFFD < id := by
  have hanswers := (promises_kept (some 10) lastPair).2.1
  have hreserved := (promises_kept (some 10) []).2.2.2
  have hfirst : ((start (some 10)).serveAll lastPair).get? "a.example"
      = some ⟨0xFFFFFFFE, 0xFFFFFFFF⟩ := by decide +kernel
  have hsecond : ((start (some 10)).serveAll lastPair).get? "b.example" = none := by
    decide +kernel
  have hend : ((start (some 10)).serveAll lastPair).next.toNat = 2 ^ 32 - 1 := by decide +kernel
  have hreserve : (start (some 10)).makeRoom 0xFFFFFFFD
      = (.ok (), ⟨0xFFFFFFFE, 0xFFFFFFFE, ∅⟩) := rfl
  exact ⟨hfirst, hsecond, hend, (hanswers.allocate_refused _).2 ⟨hsecond, hend⟩, ⟨_, hreserve⟩,
    hreserved _ _ hreserve lastPair.tail⟩

end Blocklist.IdTable
