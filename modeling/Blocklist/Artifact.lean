import Blocklist.Json.Reader
import Blocklist.Json.Writer
import Blocklist.Rule.Format
import Std.Data.HashSet

set_option autoImplicit false

/-! # Artifacts

A compiled filter list as a document: the list of its rules, laid out for people to read, with a
newline at the end. A list of rules is a valid artifact when no rule has id 0, no two rules have
one id, and every rule blocks what a pattern matches. -/

namespace Blocklist.Artifact

/-! ## Documents -/

/-- The document of a list of rules. -/
def toJson (rules : List Rule) : String :=
  Json.pretty (.list (rules.map Rule.written)) ++ "\n"

/-- The levels of nesting that a document may have. -/
def nestingLimit : Nat := 127

/-- The rules that a document spells. -/
def ofJson? (text : String) : Option (List Rule) :=
  (Json.parse? text).bind (Parsed.asList? (Rule.read? (nestingLimit - 1)))

/-! ## Validity -/

/-- Why a list of rules is no artifact. -/
inductive Fault where
  | reservedId
  | duplicateId (id : UInt32)
  | notBlocking (id : UInt32)
  | noUrlFilter (id : UInt32)
deriving DecidableEq, Repr

/-- The wording of a fault. -/
def Fault.message (fault : Fault) : String :=
  "Invalid artifact: " ++
    match fault with
    | reservedId => "rule id 0 is reserved"
    | duplicateId id => "duplicate rule id " ++ toString id
    | notBlocking id => "rule " ++ toString id ++ " is not a block rule"
    | noUrlFilter id => "rule " ++ toString id ++ " has no urlFilter"

/-- The size of an artifact and the range of its priorities; the numbers of an empty one are 0. -/
structure Summary where
  rules : Nat
  maxId : UInt32
  minPriority : UInt32
  maxPriority : UInt32
deriving DecidableEq, Repr

/-- The largest id of a list of rules, 0 if there is none. -/
def maxId (rules : List Rule) : UInt32 :=
  ((rules.map Rule.id).max?).getD 0

/-- What is wrong with a rule that follows rules with the ids `seen`. -/
def ruleFault? (seen : Std.HashSet UInt32) (rule : Rule) : Option Fault :=
  if rule.id = 0 then some .reservedId
  else if seen.contains rule.id then some (.duplicateId rule.id)
  else if rule.action ≠ .block then some (.notBlocking rule.id)
  else if rule.condition.urlFilter.all (·.isEmpty) then some (.noUrlFilter rule.id)
  else none

/-- The first fault of a list of rules that follows rules with the ids `seen`. -/
def firstFault? (seen : Std.HashSet UInt32) : List Rule → Option Fault
  | [] => none
  | rule :: rest =>
    match ruleFault? seen rule with
    | some fault => some fault
    | none => firstFault? (seen.insert rule.id) rest

/-- The summary of a valid artifact, or its first fault. -/
def validate (rules : List Rule) : Except Fault Summary :=
  match firstFault? ∅ rules with
  | some fault => .error fault
  | none =>
    .ok {
      rules := rules.length
      maxId := maxId rules
      minPriority := ((rules.map Rule.priority).min?).getD 0
      maxPriority := ((rules.map Rule.priority).max?).getD 0 }

end Blocklist.Artifact
