import Blocklist.Override.Error
import Blocklist.Program

set_option autoImplicit false

/-! # Calls of the overrides

What an operation on the overrides asks of its surroundings: the blocking engine, the store, the
time and a place for warnings. Every call on the engine and the store may fail. -/

namespace Blocklist.Override

/-- The calls. -/
inductive Call where
  | enableRuleset (ruleset : String)
  | disableRuleset (ruleset : String)
  | addRules (rules : List Rule)
  | removeRules (ids : List UInt32)
  | enabledRulesets
  | load
  | commit (expected : UInt64) (state : PersistedState)
  /-- Milliseconds since 1970. -/
  | clock
  | warn (w : Warning)

/-- What answers a call. -/
def Call.Answer : Call → Type
  | enableRuleset _ | disableRuleset _ | addRules _ | removeRules _ => Except EngineError Unit
  | enabledRulesets => Except EngineError (List String)
  | load => Except StoreError Versioned
  | commit _ _ => Except StoreError UInt64
  | clock => UInt64
  | warn _ => Unit

/-- The surroundings as an interface. -/
def interface : Interface := ⟨Call, Call.Answer⟩

/-- A program that calls on the surroundings. -/
abbrev Run := Program interface

/-- A program that may end with an error. -/
abbrev Attempt := ExceptT OverrideError Run

/-! ## Calls as programs -/

/-- Installs a batch of session rules. -/
def addRules (rules : List Rule) : Run (Except EngineError Unit) :=
  Program.ask (I := interface) (.addRules rules)

/-- Removes session rules. -/
def removeRules (ids : List UInt32) : Run (Except EngineError Unit) :=
  Program.ask (I := interface) (.removeRules ids)

/-- Switches a static ruleset. -/
def setRuleset (ruleset : String) (on : Bool) : Run (Except EngineError Unit) :=
  if on then Program.ask (I := interface) (.enableRuleset ruleset)
  else Program.ask (I := interface) (.disableRuleset ruleset)

/-- The static rulesets that are on. -/
def enabledRulesets : Run (Except EngineError (List String)) :=
  Program.ask (I := interface) .enabledRulesets

/-- Milliseconds since 1970. -/
def clock : Run UInt64 :=
  Program.ask (I := interface) .clock

/-- Warns about something. -/
def warn (w : Warning) : Run Unit :=
  Program.ask (I := interface) (.warn w)

/-! ## Calls as attempts -/

/-- A call on the engine, its failure as an error of the operation. -/
def onEngine {α : Type} (call : Run (Except EngineError α)) : Attempt α :=
  ExceptT.mk do return (← call).mapError .engine

/-- A call on the store, its failure as an error of the operation. -/
def onStore {α : Type} (call : Run (Except StoreError α)) : Attempt α :=
  ExceptT.mk do return (← call).mapError .ofStore

/-- An attempt whose error does not end the whole, but is looked at. -/
def outcome {α : Type} (a : Attempt α) : Attempt (Except OverrideError α) :=
  ExceptT.lift a.run

/-- The persisted state and its revision. -/
def load : Attempt Versioned :=
  onStore (Program.ask (I := interface) .load)

/-- The persisted state. -/
def loadState : Attempt PersistedState :=
  return (← load).state

/-- Commits a state derived from a revision; answers the new revision. -/
def commit (expected : UInt64) (state : PersistedState) : Attempt UInt64 :=
  onStore (Program.ask (I := interface) (.commit expected state))

/-- Reads the state, changes it, stamps it with the time and commits it. -/
def update (change : PersistedState → PersistedState) : Attempt UInt64 := do
  let current ← load
  let now ← clock
  commit current.revision ((change current.state).touch now)

end Blocklist.Override
