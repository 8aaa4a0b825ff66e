import Blocklist.Engine

set_option autoImplicit false

/-! # Session rules by id

The session rules of an engine are seen through `Engine.rule?`. Removing rules empties their ids and
touches nothing else; a batch is accepted iff its ids are new, distinct and not zero, and then every
rule of it stands under its own id. -/

namespace Blocklist.Engine

/-! ## Removing -/

theorem getElem?_foldl_erase (ids : List UInt32) (rules : Std.ExtTreeMap UInt32 Rule)
    (id : UInt32) :
    (ids.foldl (fun rules id => rules.erase id) rules)[id]?
      = if id ∈ ids then none else rules[id]? := by
  induction ids generalizing rules with
  | nil => simp
  | cons a rest ih =>
    simp only [List.foldl_cons, ih, Std.ExtTreeMap.getElem?_erase, Std.compare_eq_iff_eq,
      List.mem_cons]
    by_cases hrest : id ∈ rest
    · simp [hrest]
    · by_cases ha : a = id
      · simp [ha]
      · have ha' : ¬ id = a := fun h => ha h.symm
        simp [hrest, ha, ha']

/-- Removing rules empties their ids and leaves the others as they are. -/
@[simp]
theorem rule?_removeRules (engine : Engine) (ids : List UInt32) (id : UInt32) :
    (engine.removeRules ids).rule? id = if id ∈ ids then none else engine.rule? id :=
  getElem?_foldl_erase ids engine.sessionRules id

/-- An engine is known by its rulesets and its rules. -/
theorem ext_rule? {a b : Engine} (hrulesets : a.rulesets = b.rulesets)
    (hrules : ∀ id, a.rule? id = b.rule? id) : a = b := by
  obtain ⟨rulesets, sessionRules⟩ := a
  obtain ⟨_, sessionRules'⟩ := b
  cases hrulesets
  obtain rfl : sessionRules = sessionRules' := Std.ExtTreeMap.ext_getElem? hrules
  rfl

/-- Removing rules twice is removing them once. -/
@[simp]
theorem removeRules_removeRules (engine : Engine) (ids : List UInt32) :
    (engine.removeRules ids).removeRules ids = engine.removeRules ids := by
  refine ext_rule? rfl fun id => ?_
  rw [rule?_removeRules, rule?_removeRules]
  split
  · rfl
  · rfl

/-- An engine that starts has no rules. -/
@[simp]
theorem rule?_clearRules (engine : Engine) (id : UInt32) : engine.clearRules.rule? id = none :=
  Std.ExtTreeMap.getElem?_empty

/-! ## Adding -/

/-- A batch has no fault iff no rule of it has id 0, an installed or a seen id, and no two rules of
it have one id. -/
theorem batchFault?_eq_none_iff (engine : Engine) (seen : Std.HashSet UInt32)
    (batch : List Rule) :
    engine.batchFault? seen batch = none
      ↔ (∀ rule ∈ batch, rule.id ≠ 0 ∧ engine.rule? rule.id = none ∧ rule.id ∉ seen)
        ∧ (batch.map Rule.id).Nodup := by
  induction batch generalizing seen with
  | nil => simp [batchFault?]
  | cons rule rest ih =>
    have hcontains : engine.sessionRules.contains rule.id = (engine.rule? rule.id).isSome :=
      Std.ExtTreeMap.contains_eq_isSome_getElem?
    rw [batchFault?]
    by_cases hzero : rule.id = 0
    · simp [hzero]
    rw [if_neg hzero, hcontains]
    by_cases htaken : (engine.rule? rule.id).isSome || seen.contains rule.id
    · rw [if_pos htaken]
      simp only [Bool.or_eq_true, Std.HashSet.contains_iff_mem] at htaken
      constructor
      · intro h
        cases h
      · rintro ⟨hfree, -⟩
        obtain ⟨-, hnone, hseen⟩ := hfree rule (List.mem_cons_self ..)
        rcases htaken with hsome | hmem
        · simp [hnone] at hsome
        · exact absurd hmem hseen
    · -- The id counts as seen from here on, so the rest is at fault if it repeats it.
      rw [if_neg htaken, ih]
      simp only [Bool.or_eq_true, Std.HashSet.contains_iff_mem, not_or,
        Option.not_isSome_iff_eq_none] at htaken
      simp only [List.forall_mem_cons, List.map_cons, List.nodup_cons, Std.HashSet.mem_insert,
        beq_iff_eq, not_or, List.mem_map, not_exists, not_and]
      constructor
      · rintro ⟨hrest, hnodup⟩
        refine ⟨⟨⟨hzero, htaken⟩, fun r hr => ?_⟩, fun r hr heq => ?_, hnodup⟩
        · exact ⟨(hrest r hr).1, (hrest r hr).2.1, (hrest r hr).2.2.2⟩
        · exact (hrest r hr).2.2.1 heq.symm
      · rintro ⟨⟨-, hrest⟩, hfresh, hnodup⟩
        refine ⟨fun r hr => ?_, hnodup⟩
        exact ⟨(hrest r hr).1, (hrest r hr).2.1, fun heq => hfresh r hr heq.symm, (hrest r hr).2.2⟩

/-- In a batch without repeated ids, a rule is found under its id. -/
theorem find?_id_eq_some_iff {batch : List Rule} (hnodup : (batch.map Rule.id).Nodup) (id : UInt32)
    (rule : Rule) : batch.find? (·.id = id) = some rule ↔ rule ∈ batch ∧ rule.id = id := by
  constructor
  · intro h
    exact ⟨List.mem_of_find?_eq_some h, by simpa using List.find?_some h⟩
  · rintro ⟨hmem, rfl⟩
    induction batch with
    | nil => cases hmem
    | cons first rest ih =>
      rw [List.map_cons, List.nodup_cons] at hnodup
      rw [List.find?_cons]
      rcases List.mem_cons.1 hmem with rfl | hrest
      · simp
      · have hne : first.id ≠ rule.id := fun heq =>
          hnodup.1 (heq ▸ List.mem_map_of_mem hrest)
        simp [hne, ih hnodup.2 hrest]

theorem getElem?_foldl_insert (batch : List Rule) (rules : Std.ExtTreeMap UInt32 Rule)
    (hnodup : (batch.map Rule.id).Nodup) (id : UInt32) :
    (batch.foldl (fun rules rule => rules.insert rule.id rule) rules)[id]?
      = (batch.find? (·.id = id)).or rules[id]? := by
  induction batch generalizing rules with
  | nil => simp
  | cons rule rest ih =>
    rw [List.map_cons, List.nodup_cons] at hnodup
    obtain ⟨hfresh, hnodup⟩ := hnodup
    rw [List.foldl_cons, ih _ hnodup, Std.ExtTreeMap.getElem?_insert, List.find?_cons]
    by_cases hid : rule.id = id
    · have hnone : rest.find? (·.id = id) = none := by
        rw [List.find?_eq_none]
        intro r hr hrid
        exact hfresh (List.mem_map.2 ⟨r, hr, by rw [hid]; simpa using hrid⟩)
      simp [hid, hnone]
    · simp [hid]

/-- A batch is added iff it has no fault; then each of its rules stands under its own id, and every
other id is as it was. -/
theorem addRules_eq_ok_iff (engine after : Engine) (batch : List Rule) :
    engine.addRules batch = .ok after
      ↔ ((∀ rule ∈ batch, rule.id ≠ 0 ∧ engine.rule? rule.id = none)
          ∧ (batch.map Rule.id).Nodup)
        ∧ (∀ id, after.rule? id = (batch.find? (·.id = id)).or (engine.rule? id))
        ∧ after.rulesets = engine.rulesets := by
  have hfault := batchFault?_eq_none_iff engine ∅ batch
  simp only [Std.HashSet.not_mem_empty, not_false_eq_true, and_true] at hfault
  rw [← hfault]
  cases hbatch : engine.batchFault? ∅ batch with
  | some e => simp [addRules, addSessionRules, hbatch, Except.map]
  | none =>
    have hnodup := (hfault.1 hbatch).2
    simp only [addRules, addSessionRules, hbatch, Except.map, Except.ok.injEq, true_and]
    constructor
    · rintro rfl
      exact ⟨getElem?_foldl_insert batch engine.sessionRules hnodup, rfl⟩
    · rintro ⟨hrules, hrulesets⟩
      exact ext_rule? hrulesets.symm fun id =>
        (getElem?_foldl_insert batch engine.sessionRules hnodup id).trans (hrules id).symm

theorem exists_addRules {engine : Engine} {batch : List Rule}
    (h : engine.batchFault? ∅ batch = none) : ∃ after, engine.addRules batch = .ok after := by
  rw [addRules, addSessionRules, h]
  exact ⟨_, rfl⟩

/-- A batch that is refused leaves the engine as it is. -/
theorem addSessionRules_refused {engine after : Engine} {batch : List Rule} {e : EngineError}
    (h : engine.addSessionRules batch = (.error e, after)) : after = engine := by
  unfold addSessionRules at h
  split at h
  · cases h
    rfl
  · cases h

theorem addSessionRules_cases (engine : Engine) (batch : List Rule) :
    (∃ after, engine.addRules batch = .ok after ∧ engine.addSessionRules batch = (.ok (), after))
      ∨ ∃ e, engine.addRules batch = .error e
        ∧ engine.addSessionRules batch = (.error e, engine) := by
  rw [addRules]
  cases hcall : engine.addSessionRules batch with
  | mk result after =>
    cases result with
    | ok => exact Or.inl ⟨after, rfl, rfl⟩
    | error e => exact Or.inr ⟨e, rfl, by rw [addSessionRules_refused hcall]⟩

theorem addSessionRules_eq_ok_iff {engine after : Engine} {batch : List Rule} :
    engine.addSessionRules batch = (.ok (), after) ↔ engine.addRules batch = .ok after := by
  rcases engine.addSessionRules_cases batch with ⟨_, hview, hcall⟩ | ⟨_, hview, hcall⟩
  · simp [hview, hcall]
  · simp [hview, hcall]

section

variable {engine after : Engine} {batch : List Rule}

/-- The rules of a batch that was added stand under ids that were free. -/
theorem rule?_of_mem_batch (hadd : engine.addRules batch = .ok after) {rule : Rule}
    (hrule : rule ∈ batch) : engine.rule? rule.id = none ∧ after.rule? rule.id = some rule := by
  obtain ⟨⟨hfree, hnodup⟩, hafter, -⟩ := (addRules_eq_ok_iff engine after batch).1 hadd
  have hfound := (find?_id_eq_some_iff hnodup rule.id rule).2 ⟨hrule, rfl⟩
  exact ⟨(hfree rule hrule).2, by rw [hafter, hfound, Option.some_or]⟩

/-- Adding a batch leaves what stands under other ids. -/
theorem rule?_of_not_mem_batch (hadd : engine.addRules batch = .ok after) {id : UInt32}
    (hid : id ∉ batch.map Rule.id) : after.rule? id = engine.rule? id := by
  obtain ⟨-, hafter, -⟩ := (addRules_eq_ok_iff engine after batch).1 hadd
  have hnone : batch.find? (·.id = id) = none := by
    simpa [List.find?_eq_none] using hid
  rw [hafter, hnone, Option.none_or]

end

/-! ## Rulesets -/

/-- An unknown ruleset is not switched, and the engine stays as it is. -/
theorem switchRuleset_cases (engine : Engine) (ruleset : String) (on : Bool) :
    (engine.rulesets.contains ruleset = true
        ∧ engine.switchRuleset ruleset on
          = (.ok (), { engine with rulesets := engine.rulesets.insert ruleset on }))
      ∨ (¬ engine.rulesets.contains ruleset = true
        ∧ engine.switchRuleset ruleset on = (.error (.unknownRuleset ruleset), engine)) := by
  unfold switchRuleset
  split
  · rename_i hknown
    exact Or.inl ⟨hknown, rfl⟩
  · rename_i hunknown
    exact Or.inr ⟨hunknown, rfl⟩

/-- A ruleset is among those that are on iff it is known and on. -/
theorem contains_enabledRulesets (engine : Engine) (ruleset : String) :
    engine.enabledRulesets.contains ruleset = engine.isEnabled ruleset := by
  rw [Bool.eq_iff_iff, List.contains_iff_mem, enabledRulesets, isEnabled]
  simp only [List.mem_map, List.mem_filter, Prod.exists, exists_and_right, exists_eq_right,
    Std.ExtTreeMap.mem_toList_iff_getElem?_eq_some]
  cases engine.rulesets[ruleset]? with
  | none => simp
  | some on => simp

end Blocklist.Engine
