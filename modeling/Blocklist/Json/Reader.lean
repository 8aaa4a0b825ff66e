import Blocklist.Json.Token
import Blocklist.Text.Utf8

set_option autoImplicit false

/-! # Reading JSON

A document is one value with nothing but blanks around it. The reader takes one token at a time
and keeps the containers that are still open, innermost first. -/

namespace Blocklist.Json

/-- An open container with a place for one more value; what it holds already is last first. -/
inductive Hole where
  | item (before : List Parsed)
  | member (before : List (Option String × Parsed)) (name : Option String)

/-- What the reader has just read and what may follow. -/
inductive Expect where
  /-- A value must follow. -/
  | value
  /-- A list was opened: its first value or its end may follow. -/
  | firstItem
  /-- A record was opened: its first name or its end may follow. -/
  | firstName
  /-- A further name must follow the members read so far. -/
  | name (before : List (Option String × Parsed))
  /-- A colon must follow a name. -/
  | colon (before : List (Option String × Parsed)) (name : Option String)
  /-- A value is complete: the container around it goes on or ends. -/
  | done (v : Parsed)

/-- The open containers, innermost first, and what may follow. -/
structure Builder where
  holes : List Hole
  expect : Expect

namespace Builder

/-- Nothing is open, and a value must come. -/
def start : Builder := ⟨[], .value⟩

/-- A token where a value is due. -/
def openValue (holes : List Hole) : Token → Option Builder
  | .null => some ⟨holes, .done .null⟩
  | .bool b => some ⟨holes, .done (.bool b)⟩
  | .number n => some ⟨holes, .done (.number n)⟩
  | .text s => some ⟨holes, .done (.text s)⟩
  | .openList => some ⟨.item [] :: holes, .firstItem⟩
  | .openRecord => some ⟨holes, .firstName⟩
  | _ => none

/-- A token after a complete value. -/
def closeValue (v : Parsed) : List Hole → Token → Option Builder
  | .item before :: holes, .comma => some ⟨.item (v :: before) :: holes, .value⟩
  | .item before :: holes, .closeList => some ⟨holes, .done (.list (v :: before).reverse)⟩
  | .member before name :: holes, .comma => some ⟨holes, .name ((name, v) :: before)⟩
  | .member before name :: holes, .closeRecord =>
    some ⟨holes, .done (.record ((name, v) :: before).reverse)⟩
  | _, _ => none

/-- One token. -/
def step (b : Builder) (t : Token) : Option Builder :=
  match b.expect, t with
  | .value, t => openValue b.holes t
  | .firstItem, .closeList => some ⟨b.holes.tail, .done (.list [])⟩
  | .firstItem, t => openValue b.holes t
  | .firstName, .closeRecord => some ⟨b.holes, .done (.record [])⟩
  | .firstName, .text name => some ⟨b.holes, .colon [] name⟩
  | .name before, .text name => some ⟨b.holes, .colon before name⟩
  | .colon before name, .colon => some ⟨.member before name :: b.holes, .value⟩
  | .done v, t => closeValue v b.holes t
  | _, _ => none

/-- The value of the document, once nothing is open. -/
def finish : Builder → Option Parsed
  | ⟨[], .done v⟩ => some v
  | _ => none

end Builder

/-- The value that tokens spell. -/
def value? (tokens : List Token) : Option Parsed :=
  (tokens.foldlM Builder.step Builder.start).bind Builder.finish

/-- The value of a document given in cells. -/
def parseCells? (cells : List (Option Char)) : Option Parsed :=
  (tokens? cells).bind value?

/-- The value of a document. -/
def parse? (text : String) : Option Parsed :=
  parseCells? (text.toList.map some)

/-- The value of a document given in bytes. Bytes that belong to no character may stand in string
literals, which then spell no text. -/
def parseBytes? (bytes : ByteArray) : Option Parsed :=
  parseCells? (Text.cellsOfUtf8 bytes)

/-- A document is the same in characters and in bytes. -/
@[simp] theorem parseBytes?_toByteArray (text : String) :
    parseBytes? text.toByteArray = parse? text := by
  simp [parseBytes?, parse?]

end Blocklist.Json
