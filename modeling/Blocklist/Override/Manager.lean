import Blocklist.Cache
import Blocklist.Domain
import Blocklist.Override.Restore

set_option autoImplicit false

/-! # The manager of the overrides

The operations that users of the overrides see. Domains may be given in any form that names one.
The status is remembered for a while; whoever changes something through the manager makes it
forget. Every operation ends with its result and with the manager after it. -/

namespace Blocklist.Override

/-- The switch, the exemptions and the rulesets that are on. -/
structure Status where
  enabled : Bool
  exemptedDomains : List String
  enabledRulesets : List String
  lastUpdate : Option UInt64
deriving DecidableEq, Repr

/-- An exempted domain and the ids of its rules. -/
structure Exemption where
  domain : String
  ids : IdPair
deriving DecidableEq, Repr

/-- The settings and the status that is remembered. -/
structure Manager where
  config : Config
  statusCache : Cache Status

namespace Manager

/-- A manager that remembers nothing, if the settings are in order. -/
def new (config : Config) : Except OverrideError Manager :=
  match config.fault? with
  | some e => .error (.config e)
  | none => .ok ⟨config, .new config.statusTtl.toNat⟩

/-- The manager without a remembered status. -/
def forget (manager : Manager) : Manager :=
  { manager with statusCache := manager.statusCache.invalidate }

/-- The canonical name of the domain that an input names. -/
def domainOf (input : String) : Except OverrideError String :=
  match Domain.normalize? input with
  | some domain => .ok domain
  | none => .error (.invalidDomain input)

/-! ## Changes -/

/-- Blocks a domain (`blocked = true`) or exempts it. An input that names no domain changes nothing
at all; otherwise the status is forgotten, whatever comes of the toggle. -/
def setDomainBlocking (manager : Manager) (input : String) (blocked : Bool) :
    Run (Except OverrideError Transition × Manager) := do
  match domainOf input with
  | .error e => return (.error e, manager)
  | .ok domain =>
    let result ← (toggle manager.config domain blocked).run
    return (result, manager.forget)

/-- The same within a time: where the toggle would wait for ever, it ends with a timeout. What was
committed until then stays. -/
def setDomainBlockingWithin (manager : Manager) (input : String) (blocked : Bool)
    (milliseconds : UInt64) : Run (Except OverrideError Transition × Manager) := do
  match ← (manager.setDomainBlocking input blocked).bounded with
  | some outcome => return outcome
  | none =>
    warn (.toggleTimedOut input milliseconds)
    return (.error (.timeout input milliseconds), manager.forget)

/-- Switches the static ruleset and persists the switch. -/
def setGlobalEnabled (manager : Manager) (enabled : Bool) :
    Run (Except OverrideError Unit × Manager) := do
  let change : Attempt Unit := do
    onEngine (setRuleset manager.config.rulesetId enabled)
    let _ ← update fun state => { state with enabled }
  match ← change.run with
  | .ok () => return (.ok (), manager.forget)
  | .error e => return (.error e, manager)

/-- Brings the engine in line with the persisted state. -/
def restore (manager : Manager) : Run (Except OverrideError RestoreReport × Manager) := do
  match ← (restoreAll manager.config).run with
  | .ok report => return (.ok report, manager.forget)
  | .error e => return (.error e, manager)

/-! ## Questions -/

/-- The status as the store and the engine tell it. -/
def readStatus : Attempt Status := do
  let state ← loadState
  let rulesets ← onEngine enabledRulesets
  return ⟨state.enabled, state.exemptedDomains, rulesets, state.lastUpdate⟩

/-- The status, from memory while it is fresh. -/
def status (manager : Manager) : Run (Except OverrideError Status × Manager) := do
  let now ← clock
  match manager.statusCache.get? now.toNat with
  | some status => return (.ok status, manager)
  | none =>
    match ← readStatus.run with
    | .error e => return (.error e, manager)
    | .ok status =>
      let now ← clock
      return (.ok status,
        { manager with statusCache := manager.statusCache.insert now.toNat status })

/-- Whether the domain that an input names is exempted. -/
def isExempted (input : String) : Attempt Bool := do
  let domain ← ExceptT.mk (pure (domainOf input))
  return (← loadState).isExempted domain

/-- The ids at which the rules of an exempted domain stand. -/
def liveIds (config : Config) (state : PersistedState) (domain : String) : IdPair :=
  (knownIds? config state domain).getD (.hashed domain)

/-- The exempted domains in the order of their exemption, with the ids of their rules. -/
def exemptions (manager : Manager) : Attempt (List Exemption) := do
  let state ← loadState
  return state.exemptedDomains.map fun domain => ⟨domain, liveIds manager.config state domain⟩

end Manager

end Blocklist.Override
