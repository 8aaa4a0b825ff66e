import Blocklist.Value.Reader

set_option autoImplicit false

/-! # Options of a compilation -/

namespace Blocklist.FilterList

/-- What a compilation can be told. -/
structure Options where
  /-- The id of the first rule. -/
  startId : UInt32
  /-- The priority of every rule. -/
  priority : UInt32
  /-- The length of the longest domain, in characters. -/
  maxDomainLength : UInt64
  /-- Whether a pattern that stands in the list twice gives one rule. -/
  dedupe : Bool
deriving DecidableEq, Repr

namespace Options

/-- The length of the longest domain where none is given. -/
def defaultMaxDomainLength : UInt64 := 253

instance : Inhabited Options := ⟨⟨1, 1, defaultMaxDomainLength, false⟩⟩

/-- The fields of the options. -/
def form : RecordForm where
  fields := ["start_id", "priority", "max_domain_length", "dedupe"]
  closed := true
  mayStop := true

/-- The options that a value spells, with defaults for what is missing. -/
def read? (v : Parsed) : Option Options := do
  let field ← form.read? v
  let standard : Options := default
  some {
    startId := ← fieldOr standard.startId Parsed.asUInt32? (field "start_id")
    priority := ← fieldOr standard.priority Parsed.asUInt32? (field "priority")
    maxDomainLength :=
      ← fieldOr standard.maxDomainLength Parsed.asUInt64? (field "max_domain_length")
    dedupe := ← fieldOr standard.dedupe Parsed.asBool? (field "dedupe")
  }

end Options

end Blocklist.FilterList
