import Blocklist.Rule.ResourceType

set_option autoImplicit false

/-! # Rules

One shape of rule serves two purposes: block rules, compiled from a filter list, and allow rules,
installed for a domain while it is exempted. -/

namespace Blocklist

/-- What happens to a request that a rule matches. -/
inductive Action where
  | block
  | allow
deriving DecidableEq, Repr

/-- What a request must be like for a rule to match. -/
structure Condition where
  /-- The pattern that the address must match, as it stands in the filter list. -/
  urlFilter : Option String
  /-- The domains that a request must come from. -/
  initiatorDomains : Option (List String)
  /-- The domains that a request must go to. -/
  requestDomains : Option (List String)
  resourceTypes : ResourceTypes
deriving DecidableEq, Repr

/-- A rule. Of two rules that match, the one with the higher priority decides. -/
structure Rule where
  id : UInt32
  priority : UInt32
  action : Action
  condition : Condition
deriving DecidableEq, Repr

namespace Rule

/-- The rule that blocks every kind of request to addresses that a pattern matches. -/
def block (id priority : UInt32) (urlFilter : String) : Rule :=
  ⟨id, priority, .block, ⟨some urlFilter, none, none, .all⟩⟩

/-- The rule that allows every request from a domain. -/
def allowInitiator (id priority : UInt32) (domain : String) : Rule :=
  ⟨id, priority, .allow, ⟨none, some [domain], none, .all⟩⟩

/-- The rule that allows every request to a domain. -/
def allowRequest (id priority : UInt32) (domain : String) : Rule :=
  ⟨id, priority, .allow, ⟨none, none, some [domain], .all⟩⟩

end Rule

end Blocklist
