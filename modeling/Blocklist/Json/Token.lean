import Blocklist.Text.Digits
import Blocklist.Value.Basic

set_option autoImplicit false

/-! # JSON tokens

The words of a JSON document. The document is given in cells: characters, with a gap for every
byte that belongs to none. Outside string literals only a few ASCII characters can stand; inside a
literal every character from the space on can, and a gap too, which leaves the literal without a
text.

The scanner takes one cell at a time, so it is total by recursion on the cells. -/

namespace Blocklist.Json

/-- The words of a document: brackets and signs, `null` and the booleans, numbers and string
literals. A literal that spells no text is `none`. -/
inductive Token where
  | openList
  | closeList
  | openRecord
  | closeRecord
  | colon
  | comma
  | null
  | bool (b : Bool)
  | number (n : Numeral)
  | text (s : Option String)
deriving DecidableEq, Repr

/-! ## String literals -/

/-- What a string literal is written with: plain cells, and code units given in hexadecimal. -/
inductive Piece where
  | cell (c : Option Char)
  | unit (code : Nat)
deriving DecidableEq, Repr

/-- The characters that the pieces spell. A high surrogate must be followed by a low one, which
must not stand alone, and there must be no gap. -/
def Piece.spell? : List Piece → Option (List Char)
  | [] => some []
  | .cell none :: _ => none
  | .cell (some c) :: rest => (spell? rest).map (c :: ·)
  | .unit high :: rest =>
    if high < 0xD800 || 0xDFFF < high then (spell? rest).map (Char.ofNat high :: ·)
    else
      match rest with
      | .unit low :: rest' =>
        if high < 0xDC00 && 0xDC00 ≤ low && low ≤ 0xDFFF then
          (spell? rest').map
            (Char.ofNat (0x10000 + (high - 0xD800) * 0x400 + (low - 0xDC00)) :: ·)
        else none
      | _ => none

/-- The character that a one-letter escape stands for. -/
def escaped? : Char → Option Char
  | '"' => some '"'
  | '\\' => some '\\'
  | '/' => some '/'
  | 'b' => some '\x08'
  | 'f' => some '\x0c'
  | 'n' => some '\n'
  | 'r' => some '\r'
  | 't' => some '\t'
  | _ => none

/-! ## Numbers -/

/-- The characters that a number can be written with. -/
def isNumberChar (c : Char) : Bool :=
  c.isDigit || c == '-' || c == '+' || c == '.' || c == 'e' || c == 'E'

/-- The leading digits of a list and the rest. -/
def takeDigits (cs : List Char) : List Char × List Char :=
  (cs.takeWhile Char.isDigit, cs.dropWhile Char.isDigit)

/-- The digits after a point, if there is one; a point needs digits. -/
def fraction? : List Char → Option (List Char × List Char)
  | '.' :: rest =>
    let (digits, rest) := takeDigits rest
    if digits.isEmpty then none else some (digits, rest)
  | rest => some ([], rest)

/-- The exponent at the end of a number, if there is one. -/
def exponent? : List Char → Option Int
  | [] => some 0
  | e :: rest =>
    if e == 'e' || e == 'E' then
      let (negative, rest) := match rest with
        | '-' :: rest => (true, rest)
        | '+' :: rest => (false, rest)
        | rest => (false, rest)
      let (digits, rest) := takeDigits rest
      if digits.isEmpty || !rest.isEmpty then none
      else some (if negative then -(Text.digitsValue digits : Int) else Text.digitsValue digits)
    else none

/-- Whether `digits · 10 ^ exponent` lies in the range of a double, where `length` is the number
of digits. Powers are computed only near the bound. -/
def scaledInRange (digits length : Nat) (exponent : Int) : Bool :=
  if digits == 0 || exponent + length < 300 then true
  else if 700 < exponent then false
  else
    digits * Nat.pow 10 exponent.toNat
      < (Nat.pow 2 1024 - Nat.pow 2 970) * Nat.pow 10 (-exponent).toNat

/-- The number that a word spells: digits without a leading zero, then a fraction and an exponent,
each of which may be missing, and a minus sign in front of it all. -/
def numeral? (word : List Char) : Option Numeral :=
  let (negative, unsigned) := match word with
    | '-' :: rest => (true, rest)
    | rest => (false, rest)
  let (whole, rest) := takeDigits unsigned
  if whole.isEmpty || (whole.head? == some '0' && 1 < whole.length) then none
  else do
    let (decimals, tail) ← fraction? rest
    let exponent ← exponent? tail
    if negative || !rest.isEmpty then
      let digits := whole ++ decimals
      some (.other (scaledInRange (Text.digitsValue digits) digits.length
        (exponent - decimals.length)))
    else some (.natural (Text.digitsValue whole))

/-! ## The scanner -/

/-- What the scanner is in the middle of. Characters and pieces are held last first. -/
inductive Mode where
  | between
  | word (chars : List Char)
  | number (chars : List Char)
  | literal (pieces : List Piece)
  | escape (pieces : List Piece)
  | hex (pieces : List Piece) (count value : Nat)
deriving DecidableEq, Repr

/-- The tokens found so far, last first, and what has been begun. -/
structure Scanner where
  tokens : List Token
  mode : Mode

namespace Scanner

/-- Nothing is read. -/
def start : Scanner := ⟨[], .between⟩

/-- The scanner after a whole token. -/
def emit (s : Scanner) (t : Token) : Scanner := ⟨t :: s.tokens, .between⟩

/-- A character between tokens: a blank, a sign, or the start of a longer token. -/
def between (s : Scanner) (c : Char) : Option Scanner :=
  match c with
  | ' ' | '\t' | '\n' | '\r' => some s
  | '[' => some (s.emit .openList)
  | ']' => some (s.emit .closeList)
  | '{' => some (s.emit .openRecord)
  | '}' => some (s.emit .closeRecord)
  | ':' => some (s.emit .colon)
  | ',' => some (s.emit .comma)
  | '"' => some ⟨s.tokens, .literal []⟩
  | c =>
    if c.isDigit || c == '-' then some ⟨s.tokens, .number [c]⟩
    else if c.isLower then some ⟨s.tokens, .word [c]⟩
    else none

/-- The end of a word. -/
def endWord (s : Scanner) (chars : List Char) : Option Scanner :=
  match chars.reverse with
  | ['n', 'u', 'l', 'l'] => some (s.emit .null)
  | ['t', 'r', 'u', 'e'] => some (s.emit (.bool true))
  | ['f', 'a', 'l', 's', 'e'] => some (s.emit (.bool false))
  | _ => none

/-- The end of a number. -/
def endNumber (s : Scanner) (chars : List Char) : Option Scanner :=
  (numeral? chars.reverse).map fun n => s.emit (.number n)

/-- The end of a string literal. -/
def endLiteral (s : Scanner) (pieces : List Piece) : Scanner :=
  s.emit (.text ((Piece.spell? pieces.reverse).map String.ofList))

/-- One cell. -/
def step (s : Scanner) (cell : Option Char) : Option Scanner :=
  match s.mode, cell with
  | .literal pieces, none => some ⟨s.tokens, .literal (.cell none :: pieces)⟩
  | .literal pieces, some c =>
    if c == '"' then some (s.endLiteral pieces)
    else if c == '\\' then some ⟨s.tokens, .escape pieces⟩
    else if c.toNat < 0x20 then none
    else some ⟨s.tokens, .literal (.cell (some c) :: pieces)⟩
  | .escape pieces, some c =>
    if c == 'u' then some ⟨s.tokens, .hex pieces 0 0⟩
    else (escaped? c).map fun e => ⟨s.tokens, .literal (.cell (some e) :: pieces)⟩
  | .hex pieces count value, some c =>
    (Text.hexDigit? c).map fun d =>
      let value := value * 16 + d
      if count == 3 then ⟨s.tokens, .literal (.unit value :: pieces)⟩
      else ⟨s.tokens, .hex pieces (count + 1) value⟩
  | .word chars, some c =>
    if c.isLower then some ⟨s.tokens, .word (c :: chars)⟩
    else (s.endWord chars).bind (·.between c)
  | .number chars, some c =>
    if isNumberChar c then some ⟨s.tokens, .number (c :: chars)⟩
    else (s.endNumber chars).bind (·.between c)
  | .between, some c => s.between c
  | _, none => none

/-- The tokens at the end of the document, in order. -/
def finish (s : Scanner) : Option (List Token) :=
  let ended := match s.mode with
    | .between => some s
    | .word chars => s.endWord chars
    | .number chars => s.endNumber chars
    | _ => none
  ended.map (·.tokens.reverse)

end Scanner

/-- The tokens of a document. -/
def tokens? (cells : List (Option Char)) : Option (List Token) :=
  (cells.foldlM Scanner.step Scanner.start).bind Scanner.finish

end Blocklist.Json
