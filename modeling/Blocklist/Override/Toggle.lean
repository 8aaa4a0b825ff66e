import Blocklist.Override.Ids

set_option autoImplicit false

/-! # Toggling a domain

A domain is blocked unless it is exempted, and it is exempted while a pair of rules allows its
requests. A toggle changes the engine first and the persisted state second, so the state never
claims an exemption that the engine refused. When the state cannot be changed, the change of the
engine is taken back. -/

namespace Blocklist.Override

/-- Whether a domain is blocked or exempted. -/
inductive DomainState where
  | blocked
  | exempted
deriving DecidableEq, Repr

namespace DomainState

/-- The state of a domain that is exempted or not. -/
def of (isExempted : Bool) : DomainState :=
  if isExempted then exempted else blocked

/-- The name of a state. -/
def name : DomainState → String
  | blocked => "blocked"
  | exempted => "exempted"

end DomainState

/-- What a toggle did. -/
structure Transition where
  domain : String
  before : DomainState
  after : DomainState
  /-- The ids that were touched; none for a domain that never had any. -/
  ids : Option IdPair
deriving DecidableEq, Repr

/-- Whether the toggle changed the state of the domain. -/
def Transition.changed (t : Transition) : Bool :=
  t.before != t.after

/-- The two rules of an exempted domain. -/
def pairRules (config : Config) (domain : String) (ids : IdPair) : List Rule :=
  [.allowInitiator ids.incoming config.overridePriority domain,
   .allowRequest ids.outgoing config.overridePriority domain]

/-! ## Exempting -/

/-- How an installation failed. -/
inductive InstallFailure where
  /-- Nothing was removed yet. -/
  | untouched (e : EngineError)
  /-- The old pair is gone and the new one is not there. -/
  | pairRemoved (e : EngineError)
deriving DecidableEq, Repr

/-- The engine's error behind a failure. -/
def InstallFailure.error : InstallFailure → EngineError
  | untouched e | pairRemoved e => e

/-- Installs the rules of a domain: removes whatever stands at its ids and its stale ids, then adds
the pair, so that no pair is ever there twice. -/
def installPair (config : Config) (domain : String) (ids : IdPair) (stale : Option IdPair) :
    Run (Except InstallFailure Unit) := do
  match ← removeRules (ids.toList ++ stale.elim [] IdPair.toList) with
  | .error e => return .error (.untouched e)
  | .ok () =>
    match ← addRules (pairRules config domain ids) with
    | .error e => return .error (.pairRemoved e)
    | .ok () => return .ok ()

/-- Takes a pair out of the engine whose exemption could not be committed. -/
def withdrawPair (domain : String) (ids : IdPair) : Run Unit := do
  match ← removeRules ids.toList with
  | .ok () => warn (.withdrawn domain)
  | .error e => warn (.notWithdrawn domain e)

/-- Gives up the exemption of a domain whose rules are gone from the engine. -/
def dropExemption (domain : String) : Run Unit := do
  if let .error e ← (update (·.removeExemption domain)).run then
    warn (.notDropped domain e)
  warn (.reinstallFailed domain)

/-- Exempts a domain. -/
def exempt (config : Config) (domain : String) : Attempt Transition := do
  let (ids, stale) ← idsForInstall config domain
  let wasExempted := (← loadState).isExempted domain
  match ← installPair config domain ids stale with
  | .error failure =>
    if let .pairRemoved _ := failure then
      if wasExempted then dropExemption domain
    throw (.engine failure.error)
  | .ok () =>
    match ← outcome (update (·.addExemption domain)) with
    | .error e =>
      if !wasExempted then withdrawPair domain ids
      throw e
    | .ok _ => return ⟨domain, .of wasExempted, .exempted, some ids⟩

/-! ## Blocking again -/

/-- Blocks a domain again. The rules of a domain that was exempted before the table had a pair for
it stand at its hashed ids. -/
def unexempt (config : Config) (domain : String) : Attempt Transition := do
  let state ← loadState
  let wasExempted := state.isExempted domain
  let ids := (knownIds? config state domain).or
    (if wasExempted then some (.hashed domain) else none)
  if let some ids := ids then
    onEngine (removeRules ids.toList)
  match ← outcome (update (·.removeExemption domain)) with
  | .ok _ => return ⟨domain, .of wasExempted, .blocked, ids⟩
  | .error e =>
    if let (true, some ids) := (wasExempted, ids) then
      if let .error e ← addRules (pairRules config domain ids) then
        warn (.notReinstated domain e)
    throw e

/-- Blocks a domain or exempts it. -/
def toggle (config : Config) (domain : String) (blocked : Bool) : Attempt Transition :=
  if blocked then unexempt config domain else exempt config domain

end Blocklist.Override
