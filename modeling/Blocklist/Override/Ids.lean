import Blocklist.Override.Call

set_option autoImplicit false

/-! # The ids of an exempted domain

Which ids the rules of a domain use depends on the scheme. Under the table scheme a pair is
persisted before any rule is installed under it. A domain that was exempted under the hashed scheme
has no pair in the table yet; when it gets one, its hashed ids are stale and must be cleared. -/

namespace Blocklist.Override

/-- The ids that a domain has already. -/
def knownIds? (config : Config) (state : PersistedState) (domain : String) : Option IdPair :=
  match config.idScheme with
  | .hashed => some (.hashed domain)
  | .table => state.overrideIds.get? domain

/-- Warns where the hashed ids of a domain are not its own: among those of compiled rules, and with
each other exempted domain that they collide with. -/
def warnOfCollisions (config : Config) (domain : String) (ids : IdPair) : Attempt Unit := do
  if ids.withinStaticRange config.maxStaticRuleId then
    warn (.withinStaticRange ids domain)
  let state ← loadState
  for other in state.exemptedDomains do
    if other != domain && (IdPair.hashed other).overlaps ids then
      warn (.collision domain other)

/-- The table to allocate from: a table without entries starts at the configured base. -/
def tableFor (config : Config) (table : IdTable) : IdTable :=
  if table.isEmpty && table.base != config.idBase then .new config.idBase else table

/-- What the table answered; a refusal ends the attempt. -/
def onTable {α : Type} (result : Except IdError α) : Attempt α :=
  ExceptT.mk (pure (result.mapError .ids))

/-- The ids under which to install the rules of a domain, and the stale hashed ids to clear along
with them. -/
def idsForInstall (config : Config) (domain : String) : Attempt (IdPair × Option IdPair) := do
  match config.idScheme with
  | .hashed =>
    let ids := IdPair.hashed domain
    warnOfCollisions config domain ids
    return (ids, none)
  | .table =>
    let current ← load
    let state := current.state
    if let some ids := state.overrideIds.get? domain then
      return (ids, none)
    let stale := if state.isExempted domain then some (IdPair.hashed domain) else none
    let (room, table) := (tableFor config state.overrideIds).makeRoom config.maxStaticRuleId
    onTable room
    let (pair, table) := table.handOut domain
    let ids ← onTable pair
    let _ ← commit current.revision { state with overrideIds := table }
    return (ids, stale)

end Blocklist.Override
