import Blocklist.Value.Basic

set_option autoImplicit false

/-! # Reading structured values

Readers that turn a parsed value into data, or refuse it. A reader looks only at what it needs: a
string literal that spells no text and a number out of range are refused where their content is
asked for, and pass where they stand under a name that nobody reads.

A record may also be written as the list of its fields in their order. -/

namespace Blocklist

namespace Numeral

/-- The least natural number that rounds to no double. -/
def doubleLimit : Nat := Nat.pow 2 1024 - Nat.pow 2 970

/-- Whether the number lies in the range of a double. -/
def inDoubleRange : Numeral → Bool
  | natural n => n < doubleLimit
  | other inRange => inRange

end Numeral

namespace Parsed

/-! ## Scalars and lists -/

/-- A boolean. -/
def asBool? : Parsed → Option Bool
  | .bool b => some b
  | _ => none

/-- A literal that spells a text. -/
def asText? : Parsed → Option String
  | .text s => s
  | _ => none

/-- A natural number below `bound`. -/
def asNatBelow? (bound : Nat) : Parsed → Option Nat
  | .number (.natural n) => if n < bound then some n else none
  | _ => none

/-- A natural number of 32 bits. -/
def asUInt32? (v : Parsed) : Option UInt32 :=
  (v.asNatBelow? UInt32.size).map UInt32.ofNat

/-- A natural number of 64 bits. -/
def asUInt64? (v : Parsed) : Option UInt64 :=
  (v.asNatBelow? UInt64.size).map UInt64.ofNat

/-- A list, every item of which `read` accepts. -/
def asList? {α : Type} (read : Parsed → Option α) : Parsed → Option (List α)
  | .list items => items.mapM read
  | _ => none

/-- Null, or what `read` accepts. -/
def asNullable? {α : Type} (read : Parsed → Option α) : Parsed → Option (Option α)
  | .null => some none
  | v => (read v).map some

/-- A record whose names are free, as pairs in written order. -/
def asMap? {α : Type} (read : Parsed → Option α) : Parsed → Option (List (String × α))
  | .record members => members.mapM fun (name, value) =>
      match name, read value with
      | some name, some a => some (name, a)
      | _, _ => none
  | _ => none

end Parsed

/-! ## Records with known fields -/

/-- How a record with known fields may be written. -/
structure RecordForm where
  /-- The names of the fields, in their order. -/
  fields : List String
  /-- Whether names outside the fields are refused; otherwise what stands under them is passed
  over. -/
  closed : Bool
  /-- Whether the record, written as a list, may stop early. -/
  mayStop : Bool

namespace RecordForm

/-- The values written under a name. -/
def valuesOf (members : List (Option String × Parsed)) (name : String) : List Parsed :=
  (members.filter (·.1 == some name)).map (·.2)

/-- The values of the fields by name: every name spells a text, no field stands twice, and a
closed record holds no other name. -/
def fromRecord? (form : RecordForm) (members : List (Option String × Parsed)) :
    Option (String → Option Parsed) :=
  let known := fun (name : Option String) => name.any (form.fields.contains ·)
  if members.all (·.1.isSome) && (!form.closed || members.all (known ·.1))
      && form.fields.all (fun name => (valuesOf members name).length ≤ 1) then
    some fun name => if form.fields.contains name then (valuesOf members name).head? else none
  else none

/-- The values of the fields by position: no more values than fields, and no fewer unless the form
may stop early. -/
def fromList? (form : RecordForm) (items : List Parsed) : Option (String → Option Parsed) :=
  if items.length ≤ form.fields.length
      && (form.mayStop || items.length == form.fields.length) then
    some fun name => items[form.fields.idxOf name]?
  else none

/-- The values of the fields of a record, written as a record or as a list. -/
def read? (form : RecordForm) : Parsed → Option (String → Option Parsed)
  | .record members => form.fromRecord? members
  | .list items => form.fromList? items
  | _ => none

end RecordForm

/-- The field with a default that stands in when it is missing. -/
def fieldOr {α : Type} (default : α) (read : Parsed → Option α) : Option Parsed → Option α
  | none => some default
  | some v => read v

/-! ## Choices marked by a tag

A value that is one of several kinds names its kind under `type`, or first in a list. What goes
with the tag is taken in whole before the kind is known, so all of it must be in order: texts that
spell text, numbers in range, and no deeper nesting than there is room for. -/

namespace Parsed

mutual

/-- Whether a value is in order throughout and nests at most `room` levels deep. -/
def inOrder (room : Nat) : Parsed → Bool
  | .null | .bool _ => true
  | .number n => n.inDoubleRange
  | .text s => s.isSome
  | .list items => room != 0 && itemsInOrder (room - 1) items
  | .record members => room != 0 && membersInOrder (room - 1) members

/-- Whether all items are in order. -/
def itemsInOrder (room : Nat) : List Parsed → Bool
  | [] => true
  | item :: rest => inOrder room item && itemsInOrder room rest

/-- Whether all names spell texts and all values are in order. -/
def membersInOrder (room : Nat) : List (Option String × Parsed) → Bool
  | [] => true
  | (name, value) :: rest => name.isSome && inOrder room value && membersInOrder room rest

end

/-- The name under which a tag stands. -/
def tagName : String := "type"

/-- The tag of a value and what goes with it, as a record or list without the tag. -/
def tagged? (room : Nat) (v : Parsed) : Option (String × Parsed) :=
  if v.inOrder room then
    match v with
    | .record members =>
      match RecordForm.valuesOf members tagName with
      | [.text (some tag)] => some (tag, .record (members.filter (·.1 != some tagName)))
      | _ => none
    | .list (.text (some tag) :: rest) => some (tag, .list rest)
    | _ => none
  else none

/-- Whether nothing that counts goes with a tag: a record may hold anything, a list nothing. -/
def isBare : Parsed → Bool
  | .record _ => true
  | .list items => items.isEmpty
  | _ => false

end Parsed

end Blocklist
