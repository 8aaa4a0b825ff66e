import Blocklist.IdTable
import Blocklist.Text.CharClass

set_option autoImplicit false

/-! # Settings of the overrides -/

namespace Blocklist.Override

/-- Where the ids of an exempted domain come from. -/
inductive IdScheme where
  /-- From the domain's hash. -/
  | hashed
  /-- From the table. -/
  | table
deriving DecidableEq, Repr

namespace IdScheme

/-- The name of a scheme. -/
def name : IdScheme → String
  | hashed => "hashed"
  | table => "table"

/-- The scheme of a name. -/
def ofName? : String → Option IdScheme
  | "hashed" => some hashed
  | "table" => some table
  | _ => none

/-- The scheme that a value spells: its name, or a record of one member under that name in which
there is `nothing`. -/
def read? (nothing : Parsed → Bool) : Parsed → Option IdScheme
  | .text (some name) => ofName? name
  | .record [(some name, v)] => if nothing v then ofName? name else none
  | _ => none

end IdScheme

/-- The settings. -/
structure Config where
  /-- The static ruleset that the global switch turns on and off. -/
  rulesetId : String
  /-- The priority of block rules. -/
  staticPriority : UInt32
  /-- The priority of the rules for exempted domains. -/
  overridePriority : UInt32
  idScheme : IdScheme
  /-- The first id of a new table. -/
  idBase : UInt32
  /-- The largest id of a compiled rule. -/
  maxStaticRuleId : UInt32
  /-- How long a toggle may take, in milliseconds. -/
  toggleTimeout : UInt64
  /-- How long a status stays fresh, in milliseconds. -/
  statusTtl : UInt64
deriving DecidableEq, Repr

/-- Why settings are refused. -/
inductive ConfigError where
  | priorityOrder (staticPriority overridePriority : UInt32)
  | emptyRulesetId
  | zeroTimeout
deriving DecidableEq, Repr

/-- The wording of an error. -/
def ConfigError.message : ConfigError → String
  | priorityOrder staticPriority overridePriority =>
    "override_priority (" ++ toString overridePriority ++ ") must exceed static_priority ("
      ++ toString staticPriority ++ ")"
  | emptyRulesetId => "ruleset_id must not be empty"
  | zeroTimeout => "toggle_timeout_ms must be greater than zero"

namespace Config

/-- The settings where nothing else is said. -/
def standard : Config where
  rulesetId := "ruleset_1"
  staticPriority := 1
  overridePriority := 1000000
  idScheme := .table
  idBase := IdTable.defaultBase
  maxStaticRuleId := 0
  toggleTimeout := 5000
  statusTtl := 1000

instance : Inhabited Config := ⟨standard⟩

/-- The first reason to refuse the settings. -/
def fault? (config : Config) : Option ConfigError :=
  if config.overridePriority ≤ config.staticPriority then
    some (.priorityOrder config.staticPriority config.overridePriority)
  else if config.rulesetId.toList.all Text.isBlank then some .emptyRulesetId
  else if config.toggleTimeout = 0 then some .zeroTimeout
  else none

/-! ## Written form -/

/-- The fields of the settings. -/
def form : RecordForm where
  fields := ["ruleset_id", "static_priority", "override_priority", "id_scheme", "id_base",
    "max_static_rule_id", "toggle_timeout_ms", "status_ttl_ms"]
  closed := true
  mayStop := true

/-- The settings as a record. -/
def written (config : Config) : Written :=
  .record [
    ("ruleset_id", .text config.rulesetId),
    ("static_priority", .number config.staticPriority.toNat),
    ("override_priority", .number config.overridePriority.toNat),
    ("id_scheme", .text config.idScheme.name),
    ("id_base", .number config.idBase.toNat),
    ("max_static_rule_id", .number config.maxStaticRuleId.toNat),
    ("toggle_timeout_ms", .number config.toggleTimeout.toNat),
    ("status_ttl_ms", .number config.statusTtl.toNat)]

/-- The settings that a value spells, with the standard ones for what is missing; `nothing` says
which values stand for nothing at all. -/
def read? (nothing : Parsed → Bool) (v : Parsed) : Option Config := do
  let field ← form.read? v
  let word := Parsed.asUInt32?
  let time := Parsed.asUInt64?
  some {
    rulesetId := ← fieldOr standard.rulesetId Parsed.asText? (field "ruleset_id")
    staticPriority := ← fieldOr standard.staticPriority word (field "static_priority")
    overridePriority := ← fieldOr standard.overridePriority word (field "override_priority")
    idScheme := ← fieldOr standard.idScheme (IdScheme.read? nothing) (field "id_scheme")
    idBase := ← fieldOr standard.idBase word (field "id_base")
    maxStaticRuleId := ← fieldOr standard.maxStaticRuleId word (field "max_static_rule_id")
    toggleTimeout := ← fieldOr standard.toggleTimeout time (field "toggle_timeout_ms")
    statusTtl := ← fieldOr standard.statusTtl time (field "status_ttl_ms")
  }

/-- The settings that a JSON value spells, where null stands for nothing. -/
def ofJson? (v : Parsed) : Option Config :=
  read? (fun v => match v with | .null => true | _ => false) v

end Config

end Blocklist.Override
