import Blocklist.Rule.Basic

set_option autoImplicit false

/-! # The written form of rules

A rule is a record of its id, its priority, its action and its condition, in this order. Parts of
a condition that are missing are left out. A rule with a field that nobody knows is refused, while
an action may carry anything beside its tag. -/

namespace Blocklist

namespace Action

/-- The tag of an action. -/
def tag : Action → String
  | block => "block"
  | allow => "allow"

/-- The action of a tag. -/
def ofTag? : String → Option Action
  | "block" => some block
  | "allow" => some allow
  | _ => none

/-- The action as a record that holds only its tag. -/
def written (action : Action) : Written :=
  .record [(Parsed.tagName, .text action.tag)]

/-- The action that a value with `room` levels of nesting spells. -/
def read? (room : Nat) (v : Parsed) : Option Action := do
  let (tag, rest) ← v.tagged? room
  let action ← ofTag? tag
  if rest.isBare then some action else none

end Action

namespace Condition

/-- The fields of a condition. -/
def form : RecordForm where
  fields := ["urlFilter", "initiatorDomains", "requestDomains", "resourceTypes"]
  closed := true
  mayStop := false

/-- A list of domains. -/
def writtenDomains (domains : List String) : Written :=
  .list (domains.map .text)

/-- The condition as a record without its missing parts. -/
def written (condition : Condition) : Written :=
  .record <|
    (condition.urlFilter.map fun filter => ("urlFilter", .text filter)).toList
    ++ (condition.initiatorDomains.map fun ds => ("initiatorDomains", writtenDomains ds)).toList
    ++ (condition.requestDomains.map fun ds => ("requestDomains", writtenDomains ds)).toList
    ++ [("resourceTypes", condition.resourceTypes.written)]

/-- The condition that a value spells. -/
def read? (v : Parsed) : Option Condition := do
  let field ← form.read? v
  let domains? := Parsed.asNullable? (Parsed.asList? Parsed.asText?)
  some {
    urlFilter := ← fieldOr none (Parsed.asNullable? Parsed.asText?) (field "urlFilter")
    initiatorDomains := ← fieldOr none domains? (field "initiatorDomains")
    requestDomains := ← fieldOr none domains? (field "requestDomains")
    resourceTypes := ← (field "resourceTypes").bind ResourceTypes.read?
  }

end Condition

namespace Rule

/-- The fields of a rule. -/
def form : RecordForm where
  fields := ["id", "priority", "action", "condition"]
  closed := true
  mayStop := false

/-- The rule as a record. -/
def written (rule : Rule) : Written :=
  .record [
    ("id", .number rule.id.toNat),
    ("priority", .number rule.priority.toNat),
    ("action", rule.action.written),
    ("condition", rule.condition.written)]

/-- The rule that a value with `room` levels of nesting spells. -/
def read? (room : Nat) (v : Parsed) : Option Rule := do
  let field ← form.read? v
  some {
    id := ← (field "id").bind Parsed.asUInt32?
    priority := ← (field "priority").bind Parsed.asUInt32?
    action := ← (field "action").bind (Action.read? (room - 1))
    condition := ← (field "condition").bind Condition.read?
  }

end Rule

end Blocklist
