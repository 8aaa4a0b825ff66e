set_option autoImplicit false

/-! # Blank and control characters

Two classes of characters that the rest of the library asks about: the Unicode property
`White_Space` and the general category `Cc`. Both are small enough to be given in full. -/

namespace Blocklist.Text

/-- The code points with the Unicode property `White_Space`, as closed ranges. -/
def blankRanges : List (Nat × Nat) :=
  [(0x09, 0x0D), (0x20, 0x20), (0x85, 0x85), (0xA0, 0xA0), (0x1680, 0x1680), (0x2000, 0x200A),
   (0x2028, 0x2029), (0x202F, 0x202F), (0x205F, 0x205F), (0x3000, 0x3000)]

/-- Whether one of the closed ranges holds the code point. -/
def inRanges (ranges : List (Nat × Nat)) (code : Nat) : Bool :=
  ranges.any fun (first, last) => first ≤ code && code ≤ last

/-- White space of any script, line ends included. -/
def isBlank (c : Char) : Bool :=
  inRanges blankRanges c.toNat

/-- Control characters: the two blocks below `U+0020` and from `U+007F` to `U+009F`. -/
def isControl (c : Char) : Bool :=
  c.toNat ≤ 0x1F || (0x7F ≤ c.toNat && c.toNat ≤ 0x9F)

end Blocklist.Text
