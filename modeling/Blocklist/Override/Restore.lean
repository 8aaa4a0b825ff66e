import Blocklist.Override.Toggle

set_option autoImplicit false

/-! # Restoring the engine

Brings the engine in line with the persisted state: the static ruleset as the global switch says,
the rules of every exempted domain installed, and the rules of every domain of the table that is
not exempted removed. What fails for one domain does not keep the others from being restored. -/

namespace Blocklist.Override

/-- What a restoration did. -/
structure RestoreReport where
  /-- The domains whose rules were installed. -/
  restored : List String
  /-- The domains whose rules could not be installed, and why. -/
  failed : List (String × OverrideError)
  /-- The domains whose rules were removed. -/
  removed : List String
  /-- Whether the static ruleset had to be switched. -/
  rulesetReconciled : Bool
deriving DecidableEq, Repr

/-- Switches the static ruleset if it is not as the global switch says; tells whether it was. -/
def reconcileRuleset (config : Config) (enabled : Bool) : Attempt Bool := do
  let active ← onEngine enabledRulesets
  if active.contains config.rulesetId == enabled then return false
  onEngine (setRuleset config.rulesetId enabled)
  warn (.rulesetReconciled config.rulesetId)
  return true

/-- Installs the rules of a domain if it is still exempted; tells whether it was. -/
def restoreDomain (config : Config) (domain : String) : Attempt Bool := do
  if !(← loadState).isExempted domain then return false
  let (ids, stale) ← idsForInstall config domain
  match ← installPair config domain ids stale with
  | .ok () => return true
  | .error failure => throw (.engine failure.error)

/-- Removes the rules of a domain if it is still not exempted; tells whether it was. -/
def clearDomain (domain : String) : Attempt Bool := do
  let state ← loadState
  match state.overrideIds.get? domain with
  | some ids =>
    if state.isExempted domain then return false
    onEngine (removeRules ids.toList)
    return true
  | none => return false

/-- The report after one more exempted domain. -/
def restoreNext (config : Config) (report : RestoreReport) (domain : String) :
    Run RestoreReport := do
  match ← (restoreDomain config domain).run with
  | .ok true => return { report with restored := report.restored ++ [domain] }
  | .ok false => return report
  | .error e =>
    warn (.notRestored domain e)
    return { report with failed := report.failed ++ [(domain, e)] }

/-- The report after one more domain that is not exempted. -/
def clearNext (report : RestoreReport) (domain : String) : Run RestoreReport := do
  match ← (clearDomain domain).run with
  | .ok true => return { report with removed := report.removed ++ [domain] }
  | .ok false => return report
  | .error e =>
    warn (.notCleared domain e)
    return report

/-- The domains of the table that are not exempted. -/
def strayDomains (state : PersistedState) : List String :=
  state.overrideIds.domains.filter (!state.isExempted ·)

/-- Brings the engine in line with the persisted state. -/
def restoreAll (config : Config) : Attempt RestoreReport := do
  let state ← loadState
  let reconciled ← reconcileRuleset config state.enabled
  let report : RestoreReport := ⟨[], [], [], reconciled⟩
  let report ← ExceptT.lift (state.exemptedDomains.foldlM (restoreNext config) report)
  ExceptT.lift ((strayDomains state).foldlM clearNext report)

end Blocklist.Override
