import Blocklist.Rule.Basic
import Std.Data.ExtTreeMap
import Std.Data.HashSet

set_option autoImplicit false

/-! # The blocking engine

The engine holds static rulesets, each switched on or off as a whole, and session rules, each
under its own id. A call that can be refused answers with the engine after it beside its result. -/

namespace Blocklist

/-- Why the engine refuses a call. -/
inductive EngineError where
  | duplicateRuleId (id : UInt32)
  | unknownRuleset (ruleset : String)
  | rejected (reason : String)
  | unavailable (reason : String)
deriving DecidableEq, Repr

/-- The wording of an error. -/
def EngineError.message : EngineError → String
  | duplicateRuleId id => "Session rule id " ++ toString id ++ " already exists"
  | unknownRuleset ruleset => "Unknown ruleset '" ++ ruleset ++ "'"
  | rejected reason => "Engine rejected the call: " ++ reason
  | unavailable reason => "Engine unavailable: " ++ reason

/-- The rulesets, each with its switch, and the session rules by id. -/
structure Engine where
  rulesets : Std.ExtTreeMap String Bool
  sessionRules : Std.ExtTreeMap UInt32 Rule

namespace Engine

/-- An engine without session rules and with the given rulesets, all of them on. -/
def withRulesets (rulesets : List String) : Engine where
  rulesets := Std.ExtTreeMap.ofList (rulesets.map fun id => (id, true))
  sessionRules := ∅

/-- The session rules, in the order of their ids. -/
def rules (engine : Engine) : List Rule :=
  engine.sessionRules.toList.map (·.2)

/-- The session rule with an id. -/
def rule? (engine : Engine) (id : UInt32) : Option Rule :=
  engine.sessionRules[id]?

/-- Whether a ruleset is known and on. -/
def isEnabled (engine : Engine) (ruleset : String) : Bool :=
  engine.rulesets[ruleset]?.getD false

/-- The rulesets that are on, in the order of their names. -/
def enabledRulesets (engine : Engine) : List String :=
  (engine.rulesets.toList.filter (·.2)).map (·.1)

/-- Switches a ruleset. -/
def switchRuleset (engine : Engine) (ruleset : String) (on : Bool) :
    Except EngineError Unit × Engine :=
  if engine.rulesets.contains ruleset then
    (.ok (), { engine with rulesets := engine.rulesets.insert ruleset on })
  else (.error (.unknownRuleset ruleset), engine)

/-- What is wrong with the first rule of a batch that cannot be added, after rules with the ids
`seen`. -/
def batchFault? (engine : Engine) (seen : Std.HashSet UInt32) : List Rule → Option EngineError
  | [] => none
  | rule :: rest =>
    if rule.id = 0 then some (.rejected "rule id 0 is reserved")
    else if engine.sessionRules.contains rule.id || seen.contains rule.id then
      some (.duplicateRuleId rule.id)
    else engine.batchFault? (seen.insert rule.id) rest

/-- Adds a batch of session rules: all of its ids are checked before the first rule goes in. -/
def addSessionRules (engine : Engine) (batch : List Rule) : Except EngineError Unit × Engine :=
  match engine.batchFault? ∅ batch with
  | some error => (.error error, engine)
  | none =>
    (.ok (), { engine with
      sessionRules := batch.foldl (fun rules rule => rules.insert rule.id rule)
        engine.sessionRules })

/-- Removes the session rules with the given ids; ids without a rule are passed over. -/
def removeRules (engine : Engine) (ids : List UInt32) : Engine :=
  { engine with sessionRules := ids.foldl (fun rules id => rules.erase id) engine.sessionRules }

/-- The engine without session rules, as it is when it starts. -/
def clearRules (engine : Engine) : Engine :=
  { engine with sessionRules := ∅ }

/-! ## Calls that went through

What a caller goes on with who stops at a refusal. -/

/-- The engine after a ruleset was switched. -/
def setRuleset (engine : Engine) (ruleset : String) (on : Bool) : Except EngineError Engine :=
  let (result, after) := engine.switchRuleset ruleset on
  result.map fun _ => after

/-- The engine after a batch was added. -/
def addRules (engine : Engine) (batch : List Rule) : Except EngineError Engine :=
  let (result, after) := engine.addSessionRules batch
  result.map fun _ => after

end Engine

end Blocklist
