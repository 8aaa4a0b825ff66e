import Blocklist.Machine.Call
import Blocklist.Override.Request
import Blocklist.Store.File

set_option autoImplicit false

/-! # Sessions on a state file

The overrides in a state file, with an engine that lives as long as the session. Each session
starts by restoring the engine, so only the file has to outlive it. -/

namespace Blocklist.Override.Session

/-- A program that calls on the machine and has an engine. -/
abbrev WithEngine := StateT Engine Machine.Run

/-- Answers the calls of the overrides: on the engine at hand, on the state file, and on the
machine. -/
def answer (path : String) : (c : Call) → WithEngine c.Answer
  | .enableRuleset ruleset => modifyGet (·.switchRuleset ruleset true)
  | .disableRuleset ruleset => modifyGet (·.switchRuleset ruleset false)
  | .addRules rules => modifyGet (·.addSessionRules rules)
  | .removeRules ids => modifyGet fun engine => (.ok (), engine.removeRules ids)
  | .enabledRulesets => do
    let engine ← get
    return .ok engine.enabledRulesets
  | .load => StateT.lift (FileStore.load path)
  | .commit expected state => StateT.lift (FileStore.commit path expected state)
  | .clock => StateT.lift Machine.clock
  | .warn w => StateT.lift (Machine.log w.record)

/-- Runs a program on a state file. -/
def run {α : Type} (path : String) (p : Run α) : WithEngine (Option α) :=
  p.interpret (I := interface) fun c => do return some (← answer path c)

/-- Restores the engine and carries out a request. -/
def serve (manager : Manager) (request : Request) : Run (Except OverrideError Response) := do
  let (restored, manager) ← manager.restore
  match restored with
  | .error e => return .error e
  | .ok _ =>
    let (response, _) ← manager.dispatch request
    return .ok response

/-- One session: a new engine with the configured ruleset, restored, and one request. -/
def once (path : String) (config : Config) (request : Request) :
    Machine.Run (Except OverrideError Response) :=
  match Manager.new config with
  | .error e => return .error e
  | .ok manager => do
    let (result, _) ← run path (serve manager request) (.withRulesets [config.rulesetId])
    return result.getD (.error (.store (.unavailable "no answer")))

end Blocklist.Override.Session
