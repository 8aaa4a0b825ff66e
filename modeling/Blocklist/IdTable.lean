import Blocklist.IdPair
import Blocklist.Value.Reader
import Std.Data.ExtTreeMap

set_option autoImplicit false

/-! # The table of override ids

The table hands out pairs of adjacent ids in increasing order and remembers whose they are. A
domain keeps its pair for good, and no id is handed out twice. -/

namespace Blocklist

/-- The largest rule id. -/
def maxRuleId : UInt32 := 0xFFFFFFFF

/-- Why the table cannot do what it is asked. -/
inductive IdError where
  /-- No two ids are left from `next` on. -/
  | exhausted (next : UInt32)
  /-- The pair with the least id lies among the ids of compiled rules. -/
  | overlap (maxStatic lowest : UInt32)
deriving DecidableEq, Repr

/-- The wording of an error. -/
def IdError.message : IdError → String
  | exhausted next => "Override id space exhausted at " ++ toString next
  | overlap maxStatic lowest =>
    "Allocated override id " ++ toString lowest ++ " overlaps static rule ids up to "
      ++ toString maxStatic

/-- Which pair belongs to which domain, and where new pairs come from. -/
structure IdTable where
  /-- The least id that may be handed out. -/
  base : UInt32
  /-- The id that is handed out next. -/
  next : UInt32
  entries : Std.ExtTreeMap String IdPair

namespace IdTable

/-- The first id of a table for which no other was chosen. -/
def defaultBase : UInt32 := 0x1000000

/-- A table without entries that starts at `base`, but never at the reserved id 0. -/
def new (base : UInt32) : IdTable :=
  let base := max base 1
  ⟨base, base, ∅⟩

instance : Inhabited IdTable := ⟨new defaultBase⟩

/-- The pair of a domain. -/
def get? (table : IdTable) (domain : String) : Option IdPair :=
  table.entries[domain]?

/-- The number of domains with a pair. -/
def size (table : IdTable) : Nat :=
  table.entries.size

/-- Whether no domain has a pair. -/
def isEmpty (table : IdTable) : Bool :=
  table.entries.isEmpty

/-- The domains and their pairs, in the order of the domains' names. -/
def toList (table : IdTable) : List (String × IdPair) :=
  table.entries.toList

/-- The domains with a pair, in the order of their names. -/
def domains (table : IdTable) : List String :=
  table.entries.keys

/-- The least id in the table. -/
def lowest? (table : IdTable) : Option UInt32 :=
  (table.toList.map (·.2.lowest)).min?

/-- Keeps new pairs above `maxStatic`. A pair that is not above it stands in the way: it cannot be
renumbered while rules may be installed under its ids. -/
def makeRoom (table : IdTable) (maxStatic : UInt32) : Except IdError Unit × IdTable :=
  match table.lowest?.filter (· ≤ maxStatic) with
  | some lowest => (.error (.overlap maxStatic lowest), table)
  | none =>
    if maxStatic < table.base then (.ok (), table)
    else if maxStatic = maxRuleId then (.error (.exhausted table.next), table)
    else
      let floor := maxStatic + 1
      (.ok (), { table with base := floor, next := max table.next floor })

/-- The pair of a domain, which is a new one on first use. After the largest id `next` stays where
it is, and no further pair can be had. -/
def handOut (table : IdTable) (domain : String) : Except IdError IdPair × IdTable :=
  match table.get? domain with
  | some ids => (.ok ids, table)
  | none =>
    if table.next = maxRuleId then (.error (.exhausted table.next), table)
    else
      let outgoing := table.next + 1
      let ids := ⟨table.next, outgoing⟩
      let next := if outgoing = maxRuleId then maxRuleId else outgoing + 1
      (.ok ids, { table with next, entries := table.entries.insert domain ids })

/-! ## Requests that were granted

What a caller goes on with who stops at a refusal. -/

/-- The table after there was room above `maxStatic`. -/
def reserveAbove (table : IdTable) (maxStatic : UInt32) : Except IdError IdTable :=
  let (result, after) := table.makeRoom maxStatic
  result.map fun _ => after

/-- The pair that a domain was given, and the table after it. -/
def allocate (table : IdTable) (domain : String) : Except IdError (IdPair × IdTable) :=
  let (result, after) := table.handOut domain
  result.map fun ids => (ids, after)

end IdTable

/-! ## Written form -/

namespace IdPair

/-- The fields of a pair. -/
def form : RecordForm where
  fields := ["incoming", "outgoing"]
  closed := false
  mayStop := false

/-- The pair as a record. -/
def written (ids : IdPair) : Written :=
  .record [("incoming", .number ids.incoming.toNat), ("outgoing", .number ids.outgoing.toNat)]

/-- The pair that a value spells. -/
def read? (v : Parsed) : Option IdPair := do
  let field ← form.read? v
  some {
    incoming := ← (field "incoming").bind Parsed.asUInt32?
    outgoing := ← (field "outgoing").bind Parsed.asUInt32?
  }

end IdPair

namespace IdTable

/-- The fields of a table. -/
def form : RecordForm where
  fields := ["base", "next", "entries"]
  closed := false
  mayStop := false

/-- The table as a record, its entries in the order of the domains' names. -/
def written (table : IdTable) : Written :=
  .record [
    ("base", .number table.base.toNat),
    ("next", .number table.next.toNat),
    ("entries", .record (table.toList.map fun (domain, ids) => (domain, ids.written)))]

/-- The table that a value spells. Of two entries for one domain the last counts. -/
def read? (v : Parsed) : Option IdTable := do
  let field ← form.read? v
  some {
    base := ← (field "base").bind Parsed.asUInt32?
    next := ← (field "next").bind Parsed.asUInt32?
    entries := ← (field "entries").bind fun v =>
      (v.asMap? IdPair.read?).map (Std.ExtTreeMap.ofList ·)
  }

end IdTable

end Blocklist
