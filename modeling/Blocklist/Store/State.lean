import Blocklist.IdTable

set_option autoImplicit false

/-! # Persisted state

What has to outlive a run: the global switch, the exempted domains in the order in which they were
exempted, and the table of override ids. A snapshot carries the revision at which the state was
read; revision 0 says that nothing was written yet. -/

namespace Blocklist

/-- The state that outlives a run. -/
structure PersistedState where
  /-- The global switch. -/
  enabled : Bool
  /-- The time of the last change, in milliseconds since 1970. -/
  lastUpdate : Option UInt64
  /-- The exempted domains, in the order of their exemption. -/
  exemptedDomains : List String
  overrideIds : IdTable

namespace PersistedState

/-- Blocking is on and nothing is exempted. -/
def initial : PersistedState :=
  ⟨true, none, [], default⟩

instance : Inhabited PersistedState := ⟨initial⟩

/-- Whether a domain is exempted. -/
def isExempted (state : PersistedState) (domain : String) : Bool :=
  state.exemptedDomains.contains domain

/-- The state with a domain at the end of the exemptions, unless it is there already. -/
def addExemption (state : PersistedState) (domain : String) : PersistedState :=
  if state.isExempted domain then state
  else { state with exemptedDomains := state.exemptedDomains ++ [domain] }

/-- The state without a domain among the exemptions. -/
def removeExemption (state : PersistedState) (domain : String) : PersistedState :=
  { state with exemptedDomains := state.exemptedDomains.filter (· != domain) }

/-- The state as changed at a time. -/
def touch (state : PersistedState) (now : UInt64) : PersistedState :=
  { state with lastUpdate := some now }

/-! ## Written form -/

/-- The fields of a state. -/
def form : RecordForm where
  fields := ["enabled", "lastUpdate", "exemptedDomains", "overrideIds"]
  closed := false
  mayStop := true

/-- The state as a record. -/
def written (state : PersistedState) : Written :=
  .record [
    ("enabled", .bool state.enabled),
    ("lastUpdate", state.lastUpdate.elim .null (.number ·.toNat)),
    ("exemptedDomains", .list (state.exemptedDomains.map .text)),
    ("overrideIds", state.overrideIds.written)]

/-- The state that a value spells; what is missing is as in the initial state. -/
def read? (v : Parsed) : Option PersistedState := do
  let field ← form.read? v
  some {
    enabled := ← fieldOr initial.enabled Parsed.asBool? (field "enabled")
    lastUpdate :=
      ← fieldOr initial.lastUpdate (Parsed.asNullable? Parsed.asUInt64?) (field "lastUpdate")
    exemptedDomains :=
      ← fieldOr initial.exemptedDomains (Parsed.asList? Parsed.asText?) (field "exemptedDomains")
    overrideIds := ← fieldOr initial.overrideIds IdTable.read? (field "overrideIds")
  }

end PersistedState

/-- A state and the revision at which it was read. -/
structure Versioned where
  revision : UInt64
  state : PersistedState

namespace Versioned

/-- What a store holds before anything is written. -/
def unwritten : Versioned :=
  ⟨0, .initial⟩

instance : Inhabited Versioned := ⟨unwritten⟩

/-- The fields of a snapshot. -/
def form : RecordForm where
  fields := ["revision", "state"]
  closed := false
  mayStop := false

/-- The snapshot as a record. -/
def written (v : Versioned) : Written :=
  .record [("revision", .number v.revision.toNat), ("state", v.state.written)]

/-- The snapshot that a value spells. -/
def read? (v : Parsed) : Option Versioned := do
  let field ← form.read? v
  some {
    revision := ← (field "revision").bind Parsed.asUInt64?
    state := ← (field "state").bind PersistedState.read?
  }

end Versioned

end Blocklist
