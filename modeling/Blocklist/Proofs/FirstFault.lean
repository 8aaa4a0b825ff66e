import Blocklist.Proofs.Engine
import Blocklist.Proofs.Validity
import Mathlib.Tactic.MkIffOfInductiveProp
import Mathlib.Tactic.SplitIfs

set_option autoImplicit false

/-! # The first rule at fault

A list of rules is looked at rule by rule, both when an engine is to add it and when it is to be an
artifact, and what is wrong with a rule depends on the rules before it. Either check carries the ids
seen so far and tells the first fault (`FirstFault`). So a list of rules passes the check of
artifacts iff it is one, and else the check tells of its first rule at fault
(`validate_iff_wellFormed`). -/

namespace Blocklist

/-! ## First faults -/

section

variable {α ε : Type} {FaultAt : List α → α → ε → Prop}

/-- The fault of the first element of a list that has one, where what is wrong with an element
depends on the elements before it, those of `before` included. -/
def FirstFault (FaultAt : List α → α → ε → Prop) (before items : List α) (fault : ε) : Prop :=
  ∃ pre item post, items = pre ++ item :: post ∧ FaultAt (before ++ pre) item fault
    ∧ ∀ pre' item' post', pre = pre' ++ item' :: post' →
        ∀ other, ¬ FaultAt (before ++ pre') item' other

theorem not_firstFault_nil (before : List α) (fault : ε) :
    ¬ FirstFault FaultAt before [] fault := by
  rintro ⟨pre, item, post, heq, -⟩
  simp at heq

theorem firstFault_cons (before : List α) (item : α) (rest : List α) (fault : ε) :
    FirstFault FaultAt before (item :: rest) fault
      ↔ FaultAt before item fault
        ∨ (∀ other, ¬ FaultAt before item other)
          ∧ FirstFault FaultAt (before ++ [item]) rest fault := by
  constructor
  · -- The element at fault is the first one iff nothing stands before it.
    rintro ⟨pre, found, post, heq, hfault, hnone⟩
    cases pre with
    | nil =>
      simp only [List.nil_append, List.cons.injEq] at heq
      obtain ⟨rfl, -⟩ := heq
      rw [List.append_nil] at hfault
      exact Or.inl hfault
    | cons first pre =>
      simp only [List.cons_append, List.cons.injEq] at heq
      obtain ⟨rfl, rfl⟩ := heq
      have hfirst := hnone [] item pre rfl
      rw [List.append_nil] at hfirst
      refine Or.inr ⟨hfirst, pre, found, post, rfl, by simpa using hfault, ?_⟩
      intro pre' item' post' hpre other
      have hother := hnone (item :: pre') item' post' (by rw [hpre, List.cons_append]) other
      simpa using hother
  · rintro (hfault | ⟨hfirst, pre, found, post, rfl, hfault, hnone⟩)
    · refine ⟨[], item, rest, rfl, by simpa using hfault, ?_⟩
      intro pre' item' post' hpre
      simp at hpre
    · refine ⟨item :: pre, found, post, rfl, by simpa using hfault, ?_⟩
      intro pre' item' post' hpre other
      cases pre' with
      | nil =>
        simp only [List.nil_append, List.cons.injEq] at hpre
        rw [List.append_nil, ← hpre.1]
        exact hfirst other
      | cons first pre' =>
        simp only [List.cons_append, List.cons.injEq] at hpre
        obtain ⟨rfl, hpre⟩ := hpre
        simpa using hnone pre' item' post' hpre other

end

/-- Where a set holds the ids of a list of rules, it does so with one more rule in both. -/
theorem mem_insert_iff_mem_map_id {seen : Std.HashSet UInt32} {before : List Rule}
    (hseen : ∀ id, id ∈ seen ↔ id ∈ before.map Rule.id) (rule : Rule) (id : UInt32) :
    id ∈ seen.insert rule.id ↔ id ∈ (before ++ [rule]).map Rule.id := by
  simp only [Std.HashSet.mem_insert, beq_iff_eq, hseen, List.map_append, List.map_cons,
    List.map_nil, List.mem_append, List.mem_singleton]
  rw [or_comm, eq_comm (a := id)]

/-! ## Batches -/

namespace Engine

/-- Why an engine refuses a rule of a batch that follows the rules of `before`. -/
@[mk_iff]
inductive Refuses (engine : Engine) (before : List Rule) (rule : Rule) : EngineError → Prop where
  | reserved : rule.id = 0 → Refuses engine before rule (.rejected "rule id 0 is reserved")
  | taken : rule.id ≠ 0 → engine.rule? rule.id ≠ none ∨ rule.id ∈ before.map Rule.id →
      Refuses engine before rule (.duplicateRuleId rule.id)

theorem batchFault?_eq_some_iff (engine : Engine) {seen : Std.HashSet UInt32} {before : List Rule}
    (hseen : ∀ id, id ∈ seen ↔ id ∈ before.map Rule.id) (batch : List Rule) (e : EngineError) :
    engine.batchFault? seen batch = some e ↔ FirstFault engine.Refuses before batch e := by
  induction batch generalizing seen before with
  | nil => simp [batchFault?, not_firstFault_nil]
  | cons rule rest ih =>
    have hcontains : engine.sessionRules.contains rule.id = (engine.rule? rule.id).isSome :=
      Std.ExtTreeMap.contains_eq_isSome_getElem?
    have htaken : (engine.sessionRules.contains rule.id || seen.contains rule.id) = true
        ↔ engine.rule? rule.id ≠ none ∨ rule.id ∈ before.map Rule.id := by
      simp [hcontains, Option.isSome_iff_ne_none, hseen]
    rw [batchFault?, firstFault_cons]
    simp only [refuses_iff]
    by_cases hzero : rule.id = 0
    · simp [hzero, eq_comm]
    by_cases hused : engine.rule? rule.id ≠ none ∨ rule.id ∈ before.map Rule.id
    · rw [if_neg hzero, if_pos (htaken.2 hused)]
      simp only [hused, Option.some.injEq, ne_eq, hzero, not_false_eq_true, true_and, false_and,
        false_or, forall_eq, or_false, eq_comm (a := e)]
    · rw [if_neg hzero, if_neg (mt htaken.1 hused), ih (mem_insert_iff_mem_map_id hseen rule)]
      simp only [hused, hzero, false_and, and_false, or_false, not_false_eq_true, implies_true,
        true_and, false_or]

end Engine

/-! ## Artifacts -/

namespace Artifact

/-- What is wrong with a rule that follows the rules of `before`, if nothing that comes earlier in
the list of faults is. -/
@[mk_iff]
inductive Faulty (before : List Rule) (rule : Rule) : Fault → Prop where
  | reservedId : rule.id = 0 → Faulty before rule .reservedId
  | duplicateId : rule.id ≠ 0 → rule.id ∈ before.map Rule.id →
      Faulty before rule (.duplicateId rule.id)
  | notBlocking : rule.id ≠ 0 → rule.id ∉ before.map Rule.id → rule.action ≠ .block →
      Faulty before rule (.notBlocking rule.id)
  | noUrlFilter : rule.id ≠ 0 → rule.id ∉ before.map Rule.id → rule.action = .block →
      (∀ filter, rule.condition.urlFilter = some filter → filter = "") →
      Faulty before rule (.noUrlFilter rule.id)

theorem ruleFault?_eq_some_iff {seen : Std.HashSet UInt32} {before : List Rule} {rule : Rule}
    (hseen : rule.id ∈ seen ↔ rule.id ∈ before.map Rule.id) (fault : Fault) :
    ruleFault? seen rule = some fault ↔ Faulty before rule fault := by
  have hempty : rule.condition.urlFilter.all (·.isEmpty) = true
      ↔ ∀ filter, rule.condition.urlFilter = some filter → filter = "" := by
    cases rule.condition.urlFilter with
    | none => simp
    | some filter => simp
  have hcontains : seen.contains rule.id = true ↔ rule.id ∈ before.map Rule.id := by
    rw [Std.HashSet.contains_iff_mem, hseen]
  rw [ruleFault?, faulty_iff]
  by_cases hzero : rule.id = 0
  · simp [hzero, eq_comm]
  by_cases hduplicate : rule.id ∈ before.map Rule.id
  · rw [if_neg hzero, if_pos (hcontains.2 hduplicate)]
    simp [hzero, hduplicate, eq_comm]
  have hnew := mt hcontains.1 hduplicate
  by_cases haction : rule.action = .block
  · rw [if_neg hzero, if_neg hnew, if_neg (not_not.2 haction)]
    by_cases hfilter : rule.condition.urlFilter.all (·.isEmpty) = true
    · rw [if_pos hfilter]
      simp [hzero, hduplicate, haction, ← hempty, hfilter, eq_comm]
    · rw [if_neg hfilter]
      simp [hzero, hduplicate, haction, ← hempty, hfilter]
  · rw [if_neg hzero, if_neg hnew, if_pos haction]
    simp [hzero, hduplicate, haction, eq_comm]

theorem firstFault?_eq_some_iff {seen : Std.HashSet UInt32} {before : List Rule}
    (hseen : ∀ id, id ∈ seen ↔ id ∈ before.map Rule.id) (rules : List Rule) (fault : Fault) :
    firstFault? seen rules = some fault ↔ FirstFault Faulty before rules fault := by
  induction rules generalizing seen before with
  | nil => simp [firstFault?, not_firstFault_nil]
  | cons rule rest ih =>
    have hrule := ruleFault?_eq_some_iff (hseen rule.id)
    rw [firstFault?, firstFault_cons]
    cases hfault : ruleFault? seen rule with
    | some told =>
      have htold := (hrule told).1 hfault
      simp only [← hrule, hfault, Option.some.injEq]
      simp
    | none =>
      simp only [← hrule, hfault]
      simp [ih (mem_insert_iff_mem_map_id hseen rule)]

/-- What a list of rules must be like to be an artifact. -/
structure WellFormed (rules : List Rule) : Prop where
  blocking : ∀ rule ∈ rules, Blocking rule
  nodup_id : (rules.map Rule.id).Nodup

/-- The largest of some words, 0 if there is none. -/
def Largest (words : List UInt32) (word : UInt32) : Prop :=
  (words = [] ∧ word = 0) ∨ (word ∈ words ∧ ∀ other ∈ words, other ≤ word)

/-- The least of some words, 0 if there is none. -/
def Least (words : List UInt32) (word : UInt32) : Prop :=
  (words = [] ∧ word = 0) ∨ (word ∈ words ∧ ∀ other ∈ words, word ≤ other)

theorem largest_iff (words : List UInt32) (word : UInt32) :
    Largest words word ↔ word = words.max?.getD 0 := by
  unfold Largest
  by_cases hnil : words = []
  · simp [hnil]
  · obtain ⟨largest, hlargest⟩ := Option.isSome_iff_exists.1 (List.isSome_max?_of_ne_nil hnil)
    rw [hlargest, Option.getD_some, ← List.max?_eq_some_iff, hlargest]
    simp [hnil, eq_comm]

theorem least_iff (words : List UInt32) (word : UInt32) :
    Least words word ↔ word = words.min?.getD 0 := by
  unfold Least
  by_cases hnil : words = []
  · simp [hnil]
  · obtain ⟨least, hleast⟩ := Option.isSome_iff_exists.1 (List.isSome_min?_of_ne_nil hnil)
    rw [hleast, Option.getD_some, ← List.min?_eq_some_iff, hleast]
    simp [hnil, eq_comm]

/-- A summary that tells what is true of a list of rules. -/
structure Summary.Tells (summary : Summary) (rules : List Rule) : Prop where
  count : summary.rules = rules.length
  maxId : Largest (rules.map Rule.id) summary.maxId
  minPriority : Least (rules.map Rule.priority) summary.minPriority
  maxPriority : Largest (rules.map Rule.priority) summary.maxPriority

/-- A list of rules has one true summary. -/
theorem Summary.tells_iff (summary : Summary) (rules : List Rule) :
    summary.Tells rules
      ↔ summary = ⟨rules.length, Artifact.maxId rules, ((rules.map Rule.priority).min?).getD 0,
          ((rules.map Rule.priority).max?).getD 0⟩ := by
  obtain ⟨count, maxId, minPriority, maxPriority⟩ := summary
  rw [Summary.mk.injEq]
  constructor
  · intro h
    exact ⟨h.count, (largest_iff ..).1 h.maxId, (least_iff ..).1 h.minPriority,
      (largest_iff ..).1 h.maxPriority⟩
  · intro ⟨hcount, hmaxId, hmin, hmax⟩
    exact ⟨hcount, (largest_iff ..).2 hmaxId, (least_iff ..).2 hmin, (largest_iff ..).2 hmax⟩

theorem firstFault?_eq_none_iff_wellFormed (rules : List Rule) :
    firstFault? ∅ rules = none ↔ WellFormed rules := by
  rw [firstFault?_eq_none_iff]
  constructor
  · intro ⟨hrules, hnodup⟩
    exact ⟨fun rule hrule => (hrules rule hrule).1, hnodup⟩
  · intro h
    exact ⟨fun rule hrule => ⟨h.blocking rule hrule, Std.HashSet.not_mem_empty⟩, h.nodup_id⟩

/-- A list of rules passes the check iff it is an artifact, and the summary is then the true one.
Else the check tells of the first rule that is at fault, and of the first thing that is wrong with
it. -/
theorem validate_iff_wellFormed (rules : List Rule) :
    ((∃ summary, validate rules = .ok summary) ↔ WellFormed rules)
      ∧ (∀ summary, validate rules = .ok summary ↔ WellFormed rules ∧ summary.Tells rules)
      ∧ ∀ fault, validate rules = .error fault ↔ FirstFault Faulty [] rules fault := by
  have hnone := firstFault?_eq_none_iff_wellFormed rules
  have hsome := @firstFault?_eq_some_iff ∅ [] (by simp) rules
  unfold validate
  cases hfault : firstFault? ∅ rules with
  | some told =>
    have hbad : ¬ WellFormed rules := by
      rw [← hnone, hfault]
      simp
    simp [hbad, ← hsome, hfault]
  | none =>
    have hgood : WellFormed rules := hnone.1 hfault
    simp [hgood, ← hsome, hfault, Summary.tells_iff, eq_comm]

end Artifact

end Blocklist
