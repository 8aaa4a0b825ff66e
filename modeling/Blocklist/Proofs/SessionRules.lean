import Blocklist.Proofs.FirstFault
import Blocklist.Proofs.Race

set_option autoImplicit false

/-! # Adding and removing session rules

In an engine that came about by calls, every session rule stands under its own id
(`Engine.Reachable.keyed`), so that the list of rules and the rules by id say the same. A batch is
added to such an engine as a whole or not at all, removing its ids takes the addition back, and a
removal takes exactly the rules with the given ids (`addRules_all_or_nothing`). -/

namespace Blocklist

namespace Engine

/-! ## Engines in use -/

/-- The engines that come about by calls, granted or refused. -/
inductive Reachable : Engine → Prop where
  | withRulesets (rulesets : List String) : Reachable (.withRulesets rulesets)
  | switchRuleset {engine : Engine} (ruleset : String) (on : Bool) : Reachable engine →
      Reachable (engine.switchRuleset ruleset on).2
  | addSessionRules {engine : Engine} (batch : List Rule) : Reachable engine →
      Reachable (engine.addSessionRules batch).2
  | removeRules {engine : Engine} (ids : List UInt32) : Reachable engine →
      Reachable (engine.removeRules ids)
  | clearRules {engine : Engine} : Reachable engine → Reachable engine.clearRules

/-- Every session rule stands under its own id. -/
def Keyed (engine : Engine) : Prop :=
  ∀ id rule, engine.rule? id = some rule → rule.id = id

section

variable {engine after : Engine} {batch : List Rule}

theorem Keyed.removeRules (h : engine.Keyed) (ids : List UInt32) :
    (engine.removeRules ids).Keyed := by
  intro id rule hrule
  rw [rule?_removeRules] at hrule
  by_cases hid : id ∈ ids
  · simp [hid] at hrule
  · rw [if_neg hid] at hrule
    exact h id rule hrule

theorem Keyed.addRules (h : engine.Keyed) (hadd : engine.addRules batch = .ok after) :
    after.Keyed := by
  obtain ⟨⟨-, hnodup⟩, hafter, -⟩ := (addRules_eq_ok_iff engine after batch).1 hadd
  intro id rule hrule
  rw [hafter, Option.or_eq_some_iff] at hrule
  rcases hrule with hnew | ⟨-, hold⟩
  · exact ((find?_id_eq_some_iff hnodup id rule).1 hnew).2
  · exact h id rule hold

/-- Every call keeps the rules under their own ids. -/
theorem Reachable.keyed (h : engine.Reachable) : engine.Keyed := by
  induction h with
  | withRulesets rulesets =>
    intro id rule hrule
    simp [rule?, Engine.withRulesets] at hrule
  | @switchRuleset engine ruleset on _ ih =>
    rcases engine.switchRuleset_cases ruleset on with ⟨-, hcall⟩ | ⟨-, hcall⟩
    · rw [hcall]
      exact ih
    · rw [hcall]
      exact ih
  | @addSessionRules engine batch _ ih =>
    rcases engine.addSessionRules_cases batch with ⟨after, hadd, hcall⟩ | ⟨e, -, hcall⟩
    · rw [hcall]
      exact ih.addRules hadd
    · rw [hcall]
      exact ih
  | removeRules ids _ ih => exact ih.removeRules ids
  | clearRules _ ih =>
    intro id rule hrule
    simp at hrule

/-! ## The list of rules -/

theorem mem_rules (rule : Rule) : rule ∈ engine.rules ↔ ∃ id, engine.rule? id = some rule := by
  simp [rules, rule?, Std.ExtTreeMap.mem_toList_iff_getElem?_eq_some]

/-- A rule is installed iff it is found under its own id. -/
theorem Keyed.mem_rules_iff (h : engine.Keyed) (rule : Rule) :
    rule ∈ engine.rules ↔ engine.rule? rule.id = some rule := by
  rw [mem_rules]
  constructor
  · intro ⟨id, hrule⟩
    rw [h id rule hrule]
    exact hrule
  · intro hrule
    exact ⟨rule.id, hrule⟩

/-- The rules are listed by their ids. -/
theorem Keyed.pairwise_rules (h : engine.Keyed) :
    engine.rules.Pairwise fun rule other => rule.id < other.id := by
  rw [rules, List.pairwise_map]
  refine Std.ExtTreeMap.ordered_keys_toList.imp_of_mem fun {a b} ha hb hlt => ?_
  have hida := h a.1 a.2 (Std.ExtTreeMap.mem_toList_iff_getElem?_eq_some.1 ha)
  have hidb := h b.1 b.2 (Std.ExtTreeMap.mem_toList_iff_getElem?_eq_some.1 hb)
  rw [hida, hidb]
  exact Std.compare_eq_lt.1 hlt

theorem nodup_of_pairwise_id {rules : List Rule}
    (h : rules.Pairwise fun rule other => rule.id < other.id) : rules.Nodup := by
  refine h.imp fun {rule other} hlt heq => ?_
  rw [heq] at hlt
  exact UInt32.lt_irrefl _ hlt

/-- Two lists by ids that hold the same rules are one. -/
theorem eq_of_pairwise_id {rules others : List Rule}
    (hrules : rules.Pairwise fun rule other => rule.id < other.id)
    (hothers : others.Pairwise fun rule other => rule.id < other.id)
    (hmem : ∀ rule, rule ∈ rules ↔ rule ∈ others) : rules = others := by
  have hperm : rules.Perm others :=
    (List.perm_ext_iff_of_nodup (nodup_of_pairwise_id hrules) (nodup_of_pairwise_id hothers)).2 hmem
  refine hperm.eq_of_pairwise (fun rule other _ _ hlt hgt => ?_) hrules hothers
  exact absurd hgt (UInt32.lt_asymm hlt)

/-- A removal takes exactly the rules with the given ids. -/
theorem Keyed.rules_removeRules (h : engine.Keyed) (ids : List UInt32) :
    (engine.removeRules ids).rules = engine.rules.filter (·.id ∉ ids) := by
  refine eq_of_pairwise_id (h.removeRules ids).pairwise_rules (h.pairwise_rules.filter _) ?_
  intro rule
  rw [(h.removeRules ids).mem_rules_iff, rule?_removeRules, List.mem_filter, h.mem_rules_iff]
  by_cases hid : rule.id ∈ ids
  · simp [hid]
  · simp [hid]

/-! ## Batches -/

/-- A batch that can be added as a whole. -/
structure Accepts (engine : Engine) (batch : List Rule) : Prop where
  id_ne_zero : ∀ rule ∈ batch, rule.id ≠ 0
  nodup_id : (batch.map Rule.id).Nodup
  new : ∀ rule ∈ batch, engine.rule? rule.id = none

/-- An engine that has got a batch, and nothing else. -/
structure Gains (engine : Engine) (batch : List Rule) (after : Engine) : Prop where
  rules : after.rules.Perm (engine.rules ++ batch)
  added : ∀ rule ∈ batch, after.rule? rule.id = some rule
  others : ∀ id ∉ batch.map Rule.id, after.rule? id = engine.rule? id
  keyed : after.Keyed
  rulesets : after.rulesets = engine.rulesets

theorem addSessionRules_eq_error_iff (engine : Engine) (batch : List Rule) (e : EngineError) :
    (engine.addSessionRules batch).1 = .error e ↔ FirstFault engine.Refuses [] batch e := by
  rw [← @batchFault?_eq_some_iff engine ∅ [] (by simp) batch e]
  unfold addSessionRules
  cases engine.batchFault? ∅ batch with
  | some told => simp
  | none => simp

theorem accepts_iff (engine : Engine) (batch : List Rule) :
    engine.Accepts batch ↔ ∃ after, engine.addRules batch = .ok after := by
  constructor
  · intro h
    refine exists_addRules ((batchFault?_eq_none_iff engine ∅ batch).2 ⟨?_, h.nodup_id⟩)
    exact fun rule hrule => ⟨h.id_ne_zero rule hrule, h.new rule hrule, by simp⟩
  · rintro ⟨after, hafter⟩
    obtain ⟨⟨hfree, hnodup⟩, -⟩ := (addRules_eq_ok_iff engine after batch).1 hafter
    exact ⟨fun rule hrule => (hfree rule hrule).1, hnodup, fun rule hrule => (hfree rule hrule).2⟩

/-- After an addition exactly the rules from before and those of the batch are installed. -/
theorem Keyed.mem_rules_of_addRules (h : engine.Keyed) (hadd : engine.addRules batch = .ok after)
    (rule : Rule) : rule ∈ after.rules ↔ rule ∈ engine.rules ∨ rule ∈ batch := by
  rw [(h.addRules hadd).mem_rules_iff, h.mem_rules_iff]
  by_cases hid : rule.id ∈ batch.map Rule.id
  · -- The id was free and has gone to a rule of the batch, which is the only one there.
    obtain ⟨new, hnew, hsame⟩ := List.mem_map.1 hid
    obtain ⟨hnone, hsome⟩ := rule?_of_mem_batch hadd hnew
    rw [hsame] at hnone hsome
    rw [hnone, hsome, Option.some.injEq]
    constructor
    · rintro rfl
      exact Or.inr hnew
    · rintro (hold | hmem)
      · cases hold
      · rw [(rule?_of_mem_batch hadd hmem).2, Option.some.injEq] at hsome
        exact hsome.symm
  · have hmem : rule ∉ batch := fun hmem => hid (List.mem_map_of_mem hmem)
    simp [rule?_of_not_mem_batch hadd hid, hmem]

theorem Keyed.gains (h : engine.Keyed) (hadd : engine.addRules batch = .ok after) :
    engine.Gains batch after := by
  obtain ⟨⟨-, hnodup⟩, -, hrulesets⟩ := (addRules_eq_ok_iff engine after batch).1 hadd
  have hdisjoint : ∀ rule ∈ engine.rules, rule ∉ batch := by
    intro rule hrule hmem
    have hsome := (h.mem_rules_iff rule).1 hrule
    rw [(rule?_of_mem_batch hadd hmem).1] at hsome
    cases hsome
  have hbefore : engine.rules.Nodup := nodup_of_pairwise_id h.pairwise_rules
  have hafter : after.rules.Nodup := nodup_of_pairwise_id (h.addRules hadd).pairwise_rules
  refine ⟨?_, fun rule hrule => (rule?_of_mem_batch hadd hrule).2,
    fun id hid => rule?_of_not_mem_batch hadd hid, h.addRules hadd, hrulesets⟩
  have hboth : (engine.rules ++ batch).Nodup :=
    hbefore.append hnodup.of_map fun rule hrule hmem => hdisjoint rule hrule hmem
  rw [List.perm_ext_iff_of_nodup hafter hboth]
  intro rule
  rw [h.mem_rules_of_addRules hadd, List.mem_append]

/-- Removing what was added takes the addition back. -/
theorem removeRules_of_addRules (hadd : engine.addRules batch = .ok after) :
    after.removeRules (batch.map Rule.id) = engine := by
  obtain ⟨-, -, hrulesets⟩ := (addRules_eq_ok_iff engine after batch).1 hadd
  refine ext_rule? hrulesets fun id => ?_
  rw [rule?_removeRules]
  by_cases hid : id ∈ batch.map Rule.id
  · obtain ⟨rule, hrule, rfl⟩ := List.mem_map.1 hid
    rw [if_pos hid, (rule?_of_mem_batch hadd hrule).1]
  · rw [if_neg hid, rule?_of_not_mem_batch hadd hid]

end

end Engine

/-! ## Calls -/

namespace Override

open Environment

variable {env : Environment}

/-- Where nothing goes wrong, it is the engine that answers. -/
theorem answer_onEngine_of_calm {α : Type} (hcalm : Regime.calm.Admits env.schedule)
    (kind : CallKind) (event : Event) (act : Engine → Except EngineError α × Engine) :
    ∃ after, Environment.onEngine kind event act env = (some (act env.engine).1, after)
      ∧ after.engine = (act env.engine).2 ∧ Regime.calm.Admits after.schedule := by
  obtain ⟨hallows, hadmits⟩ := hcalm.next kind
  refine ⟨{ env.see event with
    schedule := (env.schedule.next kind).2, engine := (act env.engine).2 }, ?_, rfl, hadmits⟩
  have hnone : (env.schedule.next kind).1 = .none := by
    cases hfault : (env.schedule.next kind).1 with
    | none => rfl
    | unavailable | rejected | hang | outside =>
      rw [hfault] at hallows
      exact hallows.elim
  unfold Environment.onEngine
  simp only [hnone]
  rfl

theorem run_addRules_of_calm (hcalm : Regime.calm.Admits env.schedule) (batch : List Rule) :
    ∃ after, env.run (addRules batch) = (some (env.engine.addSessionRules batch).1, after)
      ∧ after.engine = (env.engine.addSessionRules batch).2
      ∧ Regime.calm.Admits after.schedule := by
  have hrun : env.run (addRules batch) = Environment.answer (.addRules batch) env := run_ask _ env
  rw [hrun, Environment.answer]
  exact answer_onEngine_of_calm hcalm .addRules (.addRules (batch.map Rule.id))
    (·.addSessionRules batch)

theorem run_removeRules_of_calm (hcalm : Regime.calm.Admits env.schedule) (ids : List UInt32) :
    ∃ after, env.run (removeRules ids) = (some (.ok ()), after)
      ∧ after.engine = env.engine.removeRules ids := by
  have hrun : env.run (removeRules ids) = Environment.answer (.removeRules ids) env := run_ask _ env
  rw [hrun, Environment.answer]
  obtain ⟨after, hanswer, hengine, -⟩ := answer_onEngine_of_calm hcalm .removeRules
    (.removeRules ids) fun engine => (.ok (), engine.removeRules ids)
  exact ⟨after, hanswer, hengine⟩

/-- Session rules are added as a whole or not at all: a batch goes through iff no rule of it has id
0, a taken id or the id of another one, and the engine then has the rules of the batch on top of its
own, until their ids are removed again. Else it tells of the first rule at fault and stays as it is.
A removal takes exactly the rules with the given ids. -/
theorem addRules_all_or_nothing (hreachable : env.engine.Reachable)
    (hcalm : Regime.calm.Admits env.schedule) :
    (∀ batch, ∃ reply after, env.run (addRules batch) = (some reply, after)
        ∧ (reply = .ok () ↔ env.engine.Accepts batch)
        ∧ (reply = .ok () → env.engine.Gains batch after.engine
            ∧ ∃ last, after.run (removeRules (batch.map Rule.id)) = (some (.ok ()), last)
                ∧ last.engine = env.engine)
        ∧ (∀ e, reply = .error e ↔ FirstFault env.engine.Refuses [] batch e)
        ∧ (∀ e, reply = .error e → after.engine = env.engine))
      ∧ ∀ ids, ∃ after, env.run (removeRules ids) = (some (.ok ()), after)
          ∧ after.engine.rules = env.engine.rules.filter (·.id ∉ ids)
          ∧ after.engine.rulesets = env.engine.rulesets := by
  have hkeyed : env.engine.Keyed := hreachable.keyed
  constructor
  · intro batch
    obtain ⟨after, hrun, hengine, hadmits⟩ := run_addRules_of_calm hcalm batch
    have haccepts := Engine.accepts_iff env.engine batch
    have herror := Engine.addSessionRules_eq_error_iff env.engine batch
    refine ⟨_, after, hrun, ?_⟩
    rcases env.engine.addSessionRules_cases batch with ⟨engine, hadd, hcall⟩ | ⟨e, hadd, hcall⟩
    · rw [hcall] at hengine herror ⊢
      obtain ⟨last, hlast, hlastEngine⟩ := run_removeRules_of_calm hadmits (batch.map Rule.id)
      rw [hengine, Engine.removeRules_of_addRules hadd] at hlastEngine
      refine ⟨iff_of_true rfl (haccepts.2 ⟨_, hadd⟩), fun _ => ?_, herror, nofun⟩
      exact ⟨hengine ▸ hkeyed.gains hadd, last, hlast, hlastEngine⟩
    · rw [hcall] at hengine herror ⊢
      refine ⟨iff_of_false nofun fun h => ?_, nofun, herror, fun _ _ => hengine⟩
      obtain ⟨_, hok⟩ := haccepts.1 h
      rw [hadd] at hok
      cases hok
  · intro ids
    obtain ⟨after, hrun, hafter⟩ := run_removeRules_of_calm hcalm ids
    refine ⟨after, hrun, ?_, ?_⟩
    · rw [hafter, hkeyed.rules_removeRules]
    · rw [hafter]
      rfl

/-- An engine with one session rule. -/
def oneRule : Engine where
  rulesets := .ofList [("ruleset_1", true)]
  sessionRules := (∅ : Std.ExtTreeMap UInt32 Rule).insert 9 (.allowRequest 9 100 "old.com")

theorem rule?_oneRule (id : UInt32) :
    oneRule.rule? id = if id = 9 then some (.allowRequest 9 100 "old.com") else none := by
  by_cases hid : id = 9
  · simp [oneRule, Engine.rule?, hid]
  · have hne : ¬ 9 = id := fun h => hid h.symm
    simp [oneRule, Engine.rule?, hid, hne]

theorem reachable_oneRule : oneRule.Reachable := by
  have hadd : (Engine.withRulesets ["ruleset_1"]).addRules [.allowRequest 9 100 "old.com"]
      = .ok oneRule := by
    refine (Engine.addRules_eq_ok_iff _ _ [.allowRequest 9 100 "old.com"]).2 ⟨⟨?_, ?_⟩, ?_, rfl⟩
    · simp [Engine.rule?, Engine.withRulesets, Rule.allowRequest]
    · simp
    · intro id
      rw [rule?_oneRule]
      by_cases hid : id = 9
      · simp [hid, Rule.allowRequest]
      · have hne : ¬ 9 = id := fun h => hid h.symm
        simp [hid, hne, Rule.allowRequest, Engine.rule?, Engine.withRulesets]
  have hafter : ((Engine.withRulesets ["ruleset_1"]).addSessionRules
      [.allowRequest 9 100 "old.com"]).2 = oneRule := by
    rw [Engine.addSessionRules_eq_ok_iff.2 hadd]
  rw [← hafter]
  exact .addSessionRules _ (.withRulesets ["ruleset_1"])

/-- Surroundings of that engine in which nothing goes wrong. -/
def oneRuleEnvironment : Environment :=
  ⟨oneRule, .memory .empty, 0, .faultless, []⟩

/-- Of three rules, the first one could be added; the second one has a taken id and is told of,
though the third one has none. -/
theorem addRules_all_or_nothing_oneRule :
    ∃ after, oneRuleEnvironment.run (addRules [.allowRequest 4 100 "new.com",
        .allowInitiator 9 100 "new.com", .allowRequest 0 100 "new.com"])
          = (some (.error (.duplicateRuleId 9)), after)
      ∧ after.engine = oneRule := by
  obtain ⟨hadd, -⟩ := @addRules_all_or_nothing oneRuleEnvironment reachable_oneRule
    (Regime.admits_faultless _)
  obtain ⟨reply, after, hrun, -, -, herror, hunchanged⟩ := hadd [.allowRequest 4 100 "new.com",
    .allowInitiator 9 100 "new.com", .allowRequest 0 100 "new.com"]
  have hfree : ∀ e, ¬ oneRule.Refuses [] (.allowRequest 4 100 "new.com") e := by
    intro e h
    rw [Engine.refuses_iff, rule?_oneRule] at h
    simp [Rule.allowRequest] at h
  have htaken : oneRule.Refuses [.allowRequest 4 100 "new.com"] (.allowInitiator 9 100 "new.com")
      (.duplicateRuleId 9) := by
    refine .taken (by decide) (Or.inl ?_)
    simp [rule?_oneRule, Rule.allowInitiator]
  have hreply : reply = .error (.duplicateRuleId 9) := by
    rw [herror, firstFault_cons, firstFault_cons]
    exact Or.inr ⟨hfree, Or.inl htaken⟩
  rw [hreply] at hrun
  exact ⟨after, hrun, hunchanged _ hreply⟩

end Override

end Blocklist
