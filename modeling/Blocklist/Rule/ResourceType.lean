import Blocklist.Value.Reader

set_option autoImplicit false

/-! # Resource types

The kinds of requests that a rule can speak about, and sets of them. A set is a mask with one bit
a kind; it is written as the list of its names in a fixed order, whatever order and repetitions it
was read with. -/

namespace Blocklist

/-- The kinds of requests. -/
inductive ResourceType where
  | mainFrame
  | subFrame
  | stylesheet
  | script
  | image
  | font
  | object
  | xmlHttpRequest
  | ping
  | cspReport
  | media
  | webSocket
  | other
deriving DecidableEq, Repr

namespace ResourceType

/-- Every kind, in the order in which names are written. -/
def all : List ResourceType :=
  [mainFrame, subFrame, stylesheet, script, image, font, object, xmlHttpRequest, ping, cspReport,
   media, webSocket, other]

/-- The name of a kind. -/
def name : ResourceType → String
  | mainFrame => "main_frame"
  | subFrame => "sub_frame"
  | stylesheet => "stylesheet"
  | script => "script"
  | image => "image"
  | font => "font"
  | object => "object"
  | xmlHttpRequest => "xmlhttprequest"
  | ping => "ping"
  | cspReport => "csp_report"
  | media => "media"
  | webSocket => "websocket"
  | other => "other"

/-- The kind of a name, spelled exactly. -/
def ofName? (name : String) : Option ResourceType :=
  all.find? (·.name == name)

@[simp] theorem mem_all (t : ResourceType) : t ∈ all := by
  cases t <;> simp [all]

@[simp] theorem ofName?_name (t : ResourceType) : ofName? t.name = some t := by
  cases t <;> rfl

end ResourceType

/-- A set of resource types: bit `i` of the mask stands for the kind with index `i`. -/
structure ResourceTypes where
  mask : BitVec 13
deriving DecidableEq, Repr

namespace ResourceTypes

/-- No kind. -/
def empty : ResourceTypes := ⟨0⟩

/-- Every kind. -/
def all : ResourceTypes := ⟨BitVec.allOnes 13⟩

/-- Whether a kind is in the set. -/
def contains (types : ResourceTypes) (t : ResourceType) : Bool :=
  types.mask.getLsbD t.ctorIdx

/-- The set with a kind added. -/
def insert (types : ResourceTypes) (t : ResourceType) : ResourceTypes :=
  ⟨types.mask ||| BitVec.twoPow 13 t.ctorIdx⟩

/-- The set of the kinds in a list. -/
def ofList (kinds : List ResourceType) : ResourceTypes :=
  kinds.foldl insert empty

/-- The kinds in the set, in the order in which they are written. -/
def toList (types : ResourceTypes) : List ResourceType :=
  ResourceType.all.filter types.contains

/-- The names of the kinds in the set, in the order in which they are written. -/
def names (types : ResourceTypes) : List String :=
  types.toList.map ResourceType.name

/-- The set as a list of names. -/
def written (types : ResourceTypes) : Written :=
  .list (types.names.map .text)

/-- The set that a list of names spells; every name must be known. -/
def read? (v : Parsed) : Option ResourceTypes :=
  (v.asList? fun item => item.asText?.bind ResourceType.ofName?).map ofList

end ResourceTypes

end Blocklist
