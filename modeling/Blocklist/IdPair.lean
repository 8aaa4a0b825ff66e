import Blocklist.Text.Utf16

set_option autoImplicit false

/-! # Override ids

An exempted domain owns a pair of rule ids, one for the rule about requests that come from it and
one for the rule about requests that go to it. A pair can be derived from the domain's name alone,
by a hash that does not keep different domains apart. -/

namespace Blocklist

/-- The pair of rule ids of one domain. -/
structure IdPair where
  /-- The id of the rule about requests from the domain. -/
  incoming : UInt32
  /-- The id of the rule about requests to the domain. -/
  outgoing : UInt32
deriving DecidableEq, Repr

namespace IdPair

/-- The two ids, the incoming one first. -/
def toList (ids : IdPair) : List UInt32 :=
  [ids.incoming, ids.outgoing]

/-- The smaller of the two ids. -/
def lowest (ids : IdPair) : UInt32 :=
  min ids.incoming ids.outgoing

/-- Whether two pairs share an id. -/
def overlaps (a b : IdPair) : Bool :=
  a.toList.any (b.toList.contains ·)

/-- Whether an id of the pair is among the ids `1` to `maxStatic` of compiled rules. -/
def withinStaticRange (ids : IdPair) (maxStatic : UInt32) : Bool :=
  ids.toList.any fun id => 1 ≤ id && id ≤ maxStatic

end IdPair

/-! ## The hash of a domain -/

/-- The absolute value of a signed word. The least word, which has no positive counterpart, keeps
its bits. -/
def signedMagnitude (h : Int32) : UInt32 :=
  if h < 0 then 0 - h.toUInt32 else h.toUInt32

/-- The hash with one more unit: 31 times the hash so far, as a shift and a subtraction, and the
unit, all of it in signed words that wrap around. -/
def hashStep (h : Int32) (unit : UInt16) : Int32 :=
  (h <<< 5) - h + unit.toUInt32.toInt32

/-- The hash of a domain: what its UTF-16 units, first unit first, add up to, without its sign. -/
def domainHash (domain : String) : UInt32 :=
  signedMagnitude ((Text.utf16Units domain).foldl hashStep 0)

/-- The pair derived from a domain's hash: the hash and its successor. -/
def IdPair.hashed (domain : String) : IdPair :=
  let h := domainHash domain
  ⟨h, h + 1⟩

end Blocklist
