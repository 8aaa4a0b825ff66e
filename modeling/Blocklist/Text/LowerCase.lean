import Blocklist.Text.CaseContext
import Blocklist.Text.CaseTable

set_option autoImplicit false

/-! # Lower case

Full lower-casing of a text. Every character maps by the table, with two exceptions: a capital I
with a dot above becomes two characters, and a capital sigma becomes a final sigma where a cased
letter stands before it in the word and none after it. -/

namespace Blocklist.Text

/-- The lower-case form of a character regardless of what surrounds it. -/
def lowerChar (c : Char) : List Char :=
  if c = '\u0130' then ['i', '\u0307'] else [Char.ofNat (lowerCode c.toNat)]

/-- Lower-cases a text of which `before`, last character first, was read already. -/
def lowerAfter (before : List Char) : List Char → List Char
  | [] => []
  | c :: rest =>
    let small :=
      if c = 'Σ' then [if startsCased before && !startsCased rest then 'ς' else 'σ']
      else lowerChar c
    small ++ lowerAfter (c :: before) rest

/-- The lower-case form of a text. -/
def lower (text : List Char) : List Char :=
  lowerAfter [] text

@[simp] theorem lower_nil : lower [] = [] := rfl

end Blocklist.Text
