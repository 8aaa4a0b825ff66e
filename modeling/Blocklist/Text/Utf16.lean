set_option autoImplicit false

/-! # UTF-16 code units

A character of the Basic Multilingual Plane is one unit; any other is a high and a low
surrogate. -/

namespace Blocklist.Text

/-- The code units of a character. -/
def charUnits (c : Char) : List UInt16 :=
  let code : UInt32 := c.val
  if code < 0x10000 then [code.toUInt16]
  else
    [((0xD800 : UInt32) + ((code - 0x10000) >>> 10)).toUInt16,
     ((0xDC00 : UInt32) + (code &&& 0x3FF)).toUInt16]

/-- The code units of a text. -/
def utf16Units (text : String) : List UInt16 :=
  text.toList.flatMap charUnits

end Blocklist.Text
