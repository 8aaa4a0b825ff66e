set_option autoImplicit false

/-! # Text from bytes

Bytes are text when they are well-formed UTF-8. Where they are not, the fault names the place:
the index of the first byte that no character covers, and either the number of bytes there that
begin a sequence which the next byte breaks, or that the bytes end inside a sequence.

A lenient view keeps what can be read: every character, and a gap for every byte that belongs to
none. -/

namespace Blocklist.Text

/-- Why bytes are not text. -/
inductive Utf8Fault where
  /-- `length` bytes at `index` begin a sequence that the next byte breaks; a byte that begins no
  sequence counts by itself. -/
  | invalid (length index : Nat)
  /-- The bytes end inside the sequence that begins at `index`. -/
  | incomplete (index : Nat)
deriving DecidableEq, Repr

/-- The wording of a fault. -/
def Utf8Fault.message : Utf8Fault → String
  | .invalid length index =>
    "invalid utf-8 sequence of " ++ toString length ++ " bytes from index " ++ toString index
  | .incomplete index => "incomplete utf-8 byte sequence from index " ++ toString index

/-- The ranges of the bytes that must follow a first byte; none for a byte that stands alone or
that begins no sequence. -/
def followers (first : UInt8) : List (UInt8 × UInt8) :=
  let tail := (0x80, 0xBF)
  if 0xC2 ≤ first ∧ first ≤ 0xDF then [tail]
  else if first = 0xE0 then [(0xA0, 0xBF), tail]
  else if first = 0xED then [(0x80, 0x9F), tail]
  else if 0xE1 ≤ first ∧ first ≤ 0xEF then [tail, tail]
  else if first = 0xF0 then [(0x90, 0xBF), tail, tail]
  else if first = 0xF4 then [(0x80, 0x8F), tail, tail]
  else if 0xF1 ≤ first ∧ first ≤ 0xF3 then [tail, tail, tail]
  else []

/-- Where a sequence at `index` stops fitting its ranges, `length` bytes after its start. -/
def faultWithin (index length : Nat) : List (UInt8 × UInt8) → List UInt8 → Utf8Fault
  | [], _ => .invalid length index
  | _ :: _, [] => .incomplete index
  | (low, high) :: ranges, byte :: rest =>
    if low ≤ byte ∧ byte ≤ high then faultWithin index (length + 1) ranges rest
    else .invalid length index

/-- The fault at an index where no character begins. -/
def faultAt (bytes : ByteArray) (index : Nat) (h : index < bytes.size) : Utf8Fault :=
  faultWithin index 1 (followers bytes[index]) (bytes.toList.drop (index + 1))

/-- The first fault from an index on. -/
def faultFrom? (bytes : ByteArray) (index : Nat) : Option Utf8Fault :=
  if h : index < bytes.size then
    match bytes.utf8DecodeChar? index with
    | some c => faultFrom? bytes (index + c.utf8Size)
    | none => some (faultAt bytes index h)
  else none
termination_by bytes.size - index
decreasing_by
  have := c.utf8Size_pos
  omega

/-- The text that the bytes spell, or where they stop spelling one. -/
def ofUtf8 (bytes : ByteArray) : Except Utf8Fault String :=
  match String.fromUTF8? bytes with
  | some text => .ok text
  | none => .error ((faultFrom? bytes 0).getD (.incomplete bytes.size))

/-- The characters from an index on, with a gap for each byte that belongs to none; `found` holds
the cells before it, last first. -/
def cellsFrom (bytes : ByteArray) (found : List (Option Char)) (index : Nat) :
    List (Option Char) :=
  if index < bytes.size then
    match bytes.utf8DecodeChar? index with
    | some c => cellsFrom bytes (some c :: found) (index + c.utf8Size)
    | none => cellsFrom bytes (none :: found) (index + 1)
  else found.reverse
termination_by bytes.size - index
decreasing_by
  · have := c.utf8Size_pos
    omega
  · omega

/-- The lenient view of bytes: the characters, with a gap for each byte that belongs to none. -/
def cellsOfUtf8 (bytes : ByteArray) : List (Option Char) :=
  match String.fromUTF8? bytes with
  | some text => text.toList.map some
  | none => cellsFrom bytes [] 0

@[simp] theorem fromUTF8?_toByteArray (text : String) :
    String.fromUTF8? text.toByteArray = some text := by
  simp [String.fromUTF8?, text.isValidUTF8, String.fromUTF8]

/-- The bytes of a text spell that text. -/
@[simp] theorem ofUtf8_toByteArray (text : String) : ofUtf8 text.toByteArray = .ok text := by
  simp [ofUtf8]

/-- The lenient view of a text's bytes has no gaps. -/
@[simp] theorem cellsOfUtf8_toByteArray (text : String) :
    cellsOfUtf8 text.toByteArray = text.toList.map some := by
  simp [cellsOfUtf8]

end Blocklist.Text
