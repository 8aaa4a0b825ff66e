import Blocklist.Proofs.Artifact
import Blocklist.Proofs.Compilation
import Blocklist.Proofs.IdTable
import Mathlib.Data.List.Nodup

set_option autoImplicit false

/-! # Compiled rules are a valid artifact

The check of an artifact is a loop that carries the ids seen so far. It finds nothing iff every rule
by itself blocks what a pattern matches under a proper id, and no two rules have one id
(`firstFault?_eq_none_iff`). Compiled rules are such: their ids count up from the first one, and a
line that is accepted is not empty. So whatever compiles passes the check, as it is and after it was
written and read, and its summary is known from the options and the number of rules
(`validate_compileBytes`). -/

namespace Blocklist

/-! ## Largest and least words -/

theorem min_eq_ite (a b : UInt32) : min a b = if a ≤ b then a else b := rfl

instance lawfulOrderMaxWord : Std.LawfulOrderMax UInt32 where
  max_eq_or a b := by
    rw [IdTable.max_eq_ite]
    grind
  max_le_iff a b c := by
    rw [IdTable.max_eq_ite]
    grind

instance lawfulOrderMinWord : Std.LawfulOrderMin UInt32 where
  min_eq_or a b := by
    rw [min_eq_ite]
    grind
  le_min_iff a b c := by
    rw [min_eq_ite]
    grind

namespace Artifact

/-! ## Faults -/

/-- What a rule of an artifact must be by itself. -/
structure Blocking (rule : Rule) : Prop where
  id_ne_zero : rule.id ≠ 0
  action : rule.action = .block
  urlFilter : ∃ filter, rule.condition.urlFilter = some filter ∧ filter ≠ ""

theorem ruleFault?_eq_none_iff (seen : Std.HashSet UInt32) (rule : Rule) :
    ruleFault? seen rule = none ↔ Blocking rule ∧ rule.id ∉ seen := by
  have hfilter : rule.condition.urlFilter.all (·.isEmpty) = true
      ↔ ¬ ∃ filter, rule.condition.urlFilter = some filter ∧ filter ≠ "" := by
    cases rule.condition.urlFilter with
    | none => simp
    | some filter => simp
  rw [ruleFault?]
  by_cases hzero : rule.id = 0
  · rw [if_pos hzero]
    exact iff_of_false nofun fun h => h.1.id_ne_zero hzero
  by_cases hseen : rule.id ∈ seen
  · rw [if_neg hzero, if_pos (Std.HashSet.contains_iff_mem.2 hseen)]
    exact iff_of_false nofun fun h => h.2 hseen
  by_cases haction : rule.action = .block
  · rw [if_neg hzero, if_neg (mt Std.HashSet.contains_iff_mem.1 hseen), if_neg (not_not.2 haction)]
    split
    · next hempty => exact iff_of_false nofun fun h => hfilter.1 hempty h.1.urlFilter
    · next hsome =>
      exact iff_of_true rfl ⟨⟨hzero, haction, not_not.1 (mt hfilter.2 hsome)⟩, hseen⟩
  · rw [if_neg hzero, if_neg (mt Std.HashSet.contains_iff_mem.1 hseen), if_pos haction]
    exact iff_of_false nofun fun h => haction h.1.action

/-- The check finds nothing iff every rule is one that blocks, and no id is repeated. -/
theorem firstFault?_eq_none_iff (seen : Std.HashSet UInt32) (rules : List Rule) :
    firstFault? seen rules = none
      ↔ (∀ rule ∈ rules, Blocking rule ∧ rule.id ∉ seen) ∧ (rules.map Rule.id).Nodup := by
  induction rules generalizing seen with
  | nil => simp [firstFault?]
  | cons rule rest ih =>
    rw [firstFault?]
    cases hfault : ruleFault? seen rule with
    | some fault =>
      refine iff_of_false nofun fun h => ?_
      have hnone := (ruleFault?_eq_none_iff seen rule).2 (h.1 rule (List.mem_cons_self ..))
      cases hfault.symm.trans hnone
    | none =>
      have hrule := (ruleFault?_eq_none_iff seen rule).1 hfault
      simp only [ih, List.forall_mem_cons, List.map_cons, List.nodup_cons, Std.HashSet.mem_insert,
        beq_iff_eq, not_or, List.mem_map, not_exists, not_and]
      constructor
      · rintro ⟨hrest, hnodup⟩
        exact ⟨⟨hrule, fun r hr => ⟨(hrest r hr).1, (hrest r hr).2.2⟩⟩,
          fun r hr heq => (hrest r hr).2.1 heq.symm, hnodup⟩
      · rintro ⟨⟨-, hrest⟩, hfresh, hnodup⟩
        exact ⟨fun r hr => ⟨(hrest r hr).1, fun heq => hfresh r hr heq.symm, (hrest r hr).2⟩,
          hnodup⟩

/-- Where there is nothing wrong, the check tells the summary. -/
theorem validate_of_blocking {rules : List Rule} (hrules : ∀ rule ∈ rules, Blocking rule)
    (hnodup : (rules.map Rule.id).Nodup) :
    validate rules = .ok ⟨rules.length, maxId rules, ((rules.map Rule.priority).min?).getD 0,
      ((rules.map Rule.priority).max?).getD 0⟩ := by
  have hnone : firstFault? ∅ rules = none :=
    (firstFault?_eq_none_iff ∅ rules).2
      ⟨fun rule hrule => ⟨hrules rule hrule, Std.HashSet.not_mem_empty⟩, hnodup⟩
  rw [validate, hnone]

theorem maxId_eq {rules : List Rule} {rule : Rule} (hmem : rule ∈ rules)
    (hle : ∀ other ∈ rules, other.id ≤ rule.id) : maxId rules = rule.id := by
  have hmax : (rules.map Rule.id).max? = some rule.id := by
    rw [List.max?_eq_some_iff, List.forall_mem_map]
    exact ⟨List.mem_map_of_mem hmem, hle⟩
  rw [maxId, hmax, Option.getD_some]

/-- Where all rules have one priority, it is the least and the largest. -/
theorem priorities_eq {rules : List Rule} {priority : UInt32} (hne : rules ≠ [])
    (h : ∀ rule ∈ rules, rule.priority = priority) :
    (rules.map Rule.priority).min? = some priority
      ∧ (rules.map Rule.priority).max? = some priority := by
  obtain ⟨rule, hrule⟩ := List.exists_mem_of_ne_nil rules hne
  have hmem : priority ∈ rules.map Rule.priority := h rule hrule ▸ List.mem_map_of_mem hrule
  have heq : ∀ p ∈ rules.map Rule.priority, p = priority := List.forall_mem_map.2 h
  rw [List.min?_eq_some_iff, List.max?_eq_some_iff]
  exact ⟨⟨hmem, fun p hp => heq p hp ▸ UInt32.le_refl _⟩,
    hmem, fun p hp => heq p hp ▸ UInt32.le_refl _⟩

end Artifact

namespace FilterList

variable {options : Options} {patterns : List String}

/-! ## Compiled rules -/

/-- A line that is accepted is not empty. -/
theorem ne_empty_of_mem_candidates {lines : List (List Char)} {pattern : String}
    (h : pattern ∈ options.candidates lines) : pattern ≠ "" := by
  have hpattern : pattern ∈ options.patterns lines := by
    rw [Options.candidates] at h
    split at h
    · exact List.mem_eraseDups.1 h
    · exact h
  obtain ⟨line, -, haccepts, rfl⟩ := mem_patterns.1 hpattern
  intro hempty
  obtain rfl : line = [] := String.ofList_injective hempty
  cases haccepts

/-- Each rule blocks one of the patterns, and its id tells which. -/
theorem of_mem_rulesOf (hroom : patterns.length ≤ options.capacity) {rule : Rule}
    (h : rule ∈ rulesOf options patterns) :
    ∃ i pattern, patterns[i]? = some pattern ∧ rule.id.toNat = options.startId.toNat + i
      ∧ rule = .block rule.id options.priority pattern := by
  obtain ⟨i, hi⟩ := List.mem_iff_getElem?.1 h
  have hlt : i < patterns.length := by
    have hlength := (List.getElem?_eq_some_iff.1 hi).1
    rwa [length_rulesOf] at hlength
  obtain ⟨id, hid, hrule⟩ := getElem?_rulesOf hroom (List.getElem?_eq_getElem hlt)
  obtain rfl := Option.some.inj (hi.symm.trans hrule)
  exact ⟨i, _, List.getElem?_eq_getElem hlt, hid, rfl⟩

/-- The ids count up from the first one. -/
theorem map_toNat_id_rulesOf (hroom : patterns.length ≤ options.capacity) :
    (rulesOf options patterns).map (fun rule => rule.id.toNat)
      = List.range' options.startId.toNat patterns.length := by
  refine List.ext_getElem? fun i => ?_
  by_cases hlt : i < patterns.length
  · obtain ⟨id, hid, hrule⟩ := getElem?_rulesOf hroom (List.getElem?_eq_getElem hlt)
    rw [List.getElem?_map, hrule, List.getElem?_range' hlt]
    simp [hid, Rule.block]
  · have hge : patterns.length ≤ i := Nat.not_lt.1 hlt
    rw [List.getElem?_eq_none, List.getElem?_eq_none]
    · rwa [List.length_range']
    · rwa [List.length_map, length_rulesOf]

theorem nodup_map_id_rulesOf (hroom : patterns.length ≤ options.capacity) :
    ((rulesOf options patterns).map Rule.id).Nodup := by
  refine List.Nodup.of_map UInt32.toNat ?_
  rw [List.map_map]
  exact (map_toNat_id_rulesOf hroom).symm ▸ List.nodup_range'

theorem blocking_of_mem_rulesOf (hstart : options.startId ≠ 0)
    (hroom : patterns.length ≤ options.capacity) (hpatterns : ∀ pattern ∈ patterns, pattern ≠ "")
    {rule : Rule} (h : rule ∈ rulesOf options patterns) : Artifact.Blocking rule := by
  obtain ⟨i, pattern, hpattern, hid, hrule⟩ := of_mem_rulesOf hroom h
  have hfilter : pattern ≠ "" := hpatterns pattern (List.mem_of_getElem? hpattern)
  refine ⟨?_, by rw [hrule]; rfl, pattern, by rw [hrule]; rfl, hfilter⟩
  intro hzero
  have hpos : options.startId.toNat ≠ 0 := fun h => hstart (UInt32.toNat_inj.1 h)
  rw [hzero, UInt32.toNat_zero] at hid
  omega

/-- The last rule has the largest id. -/
theorem toNat_maxId_rulesOf (hroom : patterns.length ≤ options.capacity) (hne : patterns ≠ []) :
    (Artifact.maxId (rulesOf options patterns)).toNat
      = options.startId.toNat + patterns.length - 1 := by
  have hlast : patterns.length - 1 < patterns.length :=
    Nat.sub_lt (List.length_pos_of_ne_nil hne) Nat.one_pos
  obtain ⟨id, hid, hrule⟩ := getElem?_rulesOf hroom (List.getElem?_eq_getElem hlast)
  rw [Artifact.maxId_eq (List.mem_of_getElem? hrule) fun other hother => ?_]
  · show id.toNat = _
    omega
  · obtain ⟨i, _, hpattern, hother, -⟩ := of_mem_rulesOf hroom hother
    have hi : i < patterns.length := (List.getElem?_eq_some_iff.1 hpattern).1
    rw [UInt32.le_iff_toNat_le, hother]
    show _ ≤ id.toNat
    omega

/-! ## The whole -/

theorem rules_of_compile {text : String} {c : Compilation} (h : compile options text = .ok c) :
    options.startId ≠ 0 ∧ ∃ patterns : List String, patterns.length ≤ options.capacity
      ∧ (∀ pattern ∈ patterns, pattern ≠ "") ∧ c.rules = rulesOf options patterns := by
  by_cases hstart : options.startId = 0
  · cases (compile_eq_invalidOptions text hstart).symm.trans h
  · rw [compile_eq text hstart] at h
    split at h
    · cases h
    · next hroom =>
      cases h
      exact ⟨hstart, _, Nat.not_lt.1 hroom, fun _ => ne_empty_of_mem_candidates, rfl⟩

/-- Whatever compiles is a valid artifact, as it is and after it was written and read. Its summary
tells the number of rules, the id of the last one and the priority of all of them. -/
theorem validate_compileBytes {bytes : ByteArray} {c : Compilation}
    (h : compileBytes options bytes = .ok c) :
    ∃ summary, Artifact.validate c.rules = .ok summary
      ∧ (Artifact.ofJson? (Artifact.toJson c.rules)).map Artifact.validate = some (.ok summary)
      ∧ summary.rules = c.rules.length
      ∧ summary.maxId = Artifact.maxId c.rules
      ∧ (c.rules = [] →
          summary.maxId = 0 ∧ summary.minPriority = 0 ∧ summary.maxPriority = 0)
      ∧ (c.rules ≠ [] → summary.maxId.toNat = options.startId.toNat + c.rules.length - 1
          ∧ summary.minPriority = options.priority ∧ summary.maxPriority = options.priority) := by
  obtain ⟨text, htext⟩ : ∃ text, compile options text = .ok c := by
    rw [compileBytes] at h
    split at h
    · next text _ => exact ⟨text, h⟩
    · cases h
  obtain ⟨hstart, patterns, hroom, hpatterns, hrules⟩ := rules_of_compile htext
  rw [hrules, Artifact.ofJson?_toJson, Option.map_some,
    Artifact.validate_of_blocking (fun _ => blocking_of_mem_rulesOf hstart hroom hpatterns)
      (nodup_map_id_rulesOf hroom)]
  refine ⟨_, rfl, rfl, rfl, rfl, ?_, fun hne => ?_⟩
  · intro hnil
    simp only [hnil]
    exact ⟨rfl, rfl, rfl⟩
  · have hpriority : ∀ rule ∈ rulesOf options patterns, rule.priority = options.priority := by
      intro rule hrule
      obtain ⟨_, _, -, -, heq⟩ := of_mem_rulesOf hroom hrule
      rw [heq]
      rfl
    obtain ⟨hmin, hmax⟩ := Artifact.priorities_eq hne hpriority
    have hsome : patterns ≠ [] := by
      rintro rfl
      exact hne rfl
    simp only [hmin, hmax, Option.getD_some, length_rulesOf]
    exact ⟨toNat_maxId_rulesOf hroom hsome, trivial, trivial⟩

/-- Two rules that take the last two ids. -/
theorem validate_compileBytes_shortList :
    ∃ c summary, compileBytes lastIds shortList.toByteArray = .ok c
      ∧ Artifact.validate c.rules = .ok summary
      ∧ (Artifact.ofJson? (Artifact.toJson c.rules)).map Artifact.validate = some (.ok summary)
      ∧ summary = ⟨2, 0xFFFFFFFF, 7, 7⟩
      ∧ Artifact.maxId c.rules = 0xFFFFFFFF := by
  have hlength : (lastIds.candidates (trimmedLines shortList)).length = 2 := by decide +kernel
  obtain ⟨c, hc, hrules⟩ : ∃ c, compileBytes lastIds shortList.toByteArray = .ok c
      ∧ c.rules.length = 2 := by
    have hstart : lastIds.startId ≠ 0 := by decide
    have hroom : ¬ lastIds.capacity < (lastIds.candidates (trimmedLines shortList)).length := by
      rw [hlength]
      decide
    rw [compileBytes, Text.ofUtf8_toByteArray]
    simp only [compile_eq shortList hstart, if_neg hroom]
    exact ⟨_, rfl, by rw [length_rulesOf, hlength]⟩
  obtain ⟨summary, hvalid, hread, hcount, hmax, -, hsome⟩ := validate_compileBytes hc
  have hne : c.rules ≠ [] := by
    intro hnil
    rw [hnil] at hrules
    cases hrules
  obtain ⟨hid, hmin, hmaxPriority⟩ := hsome hne
  have hlast : summary.maxId = 0xFFFFFFFF := by
    rw [← UInt32.toNat_inj, hid, hrules]
    rfl
  refine ⟨c, summary, hc, hvalid, hread, ?_, hmax ▸ hlast⟩
  obtain ⟨count, maxId, minPriority, maxPriority⟩ := summary
  simp only at hcount hlast hmin hmaxPriority
  rw [hcount, hlast, hmin, hmaxPriority, hrules]
  rfl

end FilterList

end Blocklist
