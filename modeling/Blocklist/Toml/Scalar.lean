import Blocklist.Text.Digits
import Blocklist.Value.Basic

set_option autoImplicit false

/-! # TOML scalars

Texts and integers of a TOML document. Each reader takes what stands at the front of a text and
leaves the rest. -/

namespace Blocklist.Toml

/-- A reader of what stands at the front of a text. -/
abbrev Front (α : Type) := List Char → Option (α × List Char)

/-- Blanks inside a line. -/
def isSpace (c : Char) : Bool :=
  c == ' ' || c == '\t'

/-- The text without the blanks at its front. -/
def skipSpace (cs : List Char) : List Char :=
  cs.dropWhile isSpace

/-- Characters that may stand in a comment or a text: all but control characters, and the tab. -/
def isPlain (c : Char) : Bool :=
  c == '\t' || (0x20 ≤ c.toNat && c.toNat != 0x7F)

/-- The rest after a line end, if one stands at the front. -/
def newline? : List Char → Option (List Char)
  | '\n' :: rest => some rest
  | '\r' :: '\n' :: rest => some rest
  | _ => none

/-- The text without a line end at its front. -/
def dropNewline (cs : List Char) : List Char :=
  (newline? cs).getD cs

/-! ## Texts -/

/-- The character of a code point, if it has one. -/
def charOf? (code : Nat) : Option Char :=
  if code < 0xD800 || (0xDFFF < code && code < 0x110000) then some (Char.ofNat code) else none

/-- The character that an escape spells, the backslash being read already. -/
def escape? : Front Char
  | 'b' :: rest => some ('\x08', rest)
  | 't' :: rest => some ('\t', rest)
  | 'n' :: rest => some ('\n', rest)
  | 'f' :: rest => some ('\x0c', rest)
  | 'r' :: rest => some ('\r', rest)
  | '"' :: rest => some ('"', rest)
  | '\\' :: rest => some ('\\', rest)
  | 'u' :: rest => code? 4 rest
  | 'U' :: rest => code? 8 rest
  | _ => none
where
  /-- The character of a number of hexadecimal digits. -/
  code? (count : Nat) (rest : List Char) : Option (Char × List Char) := do
    let digits ← (rest.take count).mapM Text.hexDigit?
    if digits.length = count then
      let c ← charOf? (digits.foldl (fun n d => n * 16 + d) 0)
      some (c, rest.drop count)
    else none

/-- The rest of a text in double quotes on one line; `fuel` bounds the characters. -/
def basic? : Nat → List Char → Front (List Char)
  | 0, _, _ => none
  | _ + 1, _, [] => none
  | _ + 1, found, '"' :: rest => some (found.reverse, rest)
  | fuel + 1, found, '\\' :: rest => do
    let (c, rest) ← escape? rest
    basic? fuel (c :: found) rest
  | fuel + 1, found, c :: rest => if isPlain c then basic? fuel (c :: found) rest else none

/-- A text in single quotes on one line, in which nothing is escaped. -/
def literal? : Front (List Char) := fun cs =>
  let (found, rest) := (cs.takeWhile (fun c => isPlain c && c != '\''),
    cs.dropWhile fun c => isPlain c && c != '\'')
  match rest with
  | '\'' :: rest => some (found, rest)
  | _ => none

/-- The end of a text in three quotes, at a run of the quote: the last three of up to five quotes
end it. Answers the quotes that belong to the text. -/
def closing? (quote : Char) (cs : List Char) : Option (List Char × List Char) :=
  let run := (cs.takeWhile (· == quote)).length
  if run < 3 then none
  else
    let count := min run 5
    some (List.replicate (count - 3) quote, cs.drop count)

/-- The text without blanks and line ends at its front, after a backslash that ends a line; none
if the line does not end there. -/
def continuation? (cs : List Char) : Option (List Char) := do
  let rest ← newline? (skipSpace cs)
  some (rest.dropWhile fun c => isSpace c || c == '\n' || c == '\r')

/-- The rest of a text in three double quotes; `fuel` bounds the characters. -/
def basicLines? : Nat → List Char → Front (List Char)
  | 0, _, _ => none
  | fuel + 1, found, cs =>
    match closing? '"' cs with
    | some (quotes, rest) => some (found.reverse ++ quotes, rest)
    | none =>
      match cs with
      | [] => none
      | '\\' :: rest =>
        match continuation? rest with
        | some rest => basicLines? fuel found rest
        | none => do
          let (c, rest) ← escape? rest
          basicLines? fuel (c :: found) rest
      | c :: rest =>
        match newline? (c :: rest) with
        | some rest => basicLines? fuel ('\n' :: found) rest
        | none => if isPlain c then basicLines? fuel (c :: found) rest else none

/-- The rest of a text in three single quotes; `fuel` bounds the characters. -/
def literalLines? : Nat → List Char → Front (List Char)
  | 0, _, _ => none
  | fuel + 1, found, cs =>
    match closing? '\'' cs with
    | some (quotes, rest) => some (found.reverse ++ quotes, rest)
    | none =>
      match cs with
      | [] => none
      | c :: rest =>
        match newline? (c :: rest) with
        | some rest => literalLines? fuel ('\n' :: found) rest
        | none => if isPlain c then literalLines? fuel (c :: found) rest else none

/-- A text on one line. -/
def lineText? : Front (List Char) := fun cs =>
  match cs with
  | '"' :: rest => basic? cs.length [] rest
  | '\'' :: rest => literal? rest
  | _ => none

/-- A text in any quotes. A line end directly after three quotes is not part of it. -/
def text? : Front (List Char) := fun cs =>
  match cs with
  | '"' :: '"' :: '"' :: rest => basicLines? cs.length [] (dropNewline rest)
  | '\'' :: '\'' :: '\'' :: rest => literalLines? cs.length [] (dropNewline rest)
  | cs => lineText? cs

/-! ## Integers and booleans -/

/-- The characters that a number or a boolean can be written with. -/
def isWordChar (c : Char) : Bool :=
  c.isAlphanum || c == '_' || c == '+' || c == '-' || c == '.' || c == ':'

/-- The digits of a number without the underscores, each of which stands between two digits. -/
def ungroup? (isDigit : Char → Bool) : List Char → Option (List Char)
  | [] => none
  | [d] => if isDigit d then some [d] else none
  | d :: '_' :: rest => if isDigit d then (ungroup? isDigit rest).map (d :: ·) else none
  | d :: rest => if isDigit d then (ungroup? isDigit rest).map (d :: ·) else none

/-- The number that digits spell in a base of at most 16. -/
def inBase? (base : Nat) (digits : List Char) : Option Nat := do
  let digits ← ungroup? (fun c => (Text.hexDigit? c).any (· < base)) digits
  let digits ← digits.mapM Text.hexDigit?
  some (digits.foldl (fun n d => n * base + d) 0)

/-- Whether decimal digits are a number: no zero stands in front of others. -/
def isDecimal (digits : List Char) : Bool :=
  digits.head? != some '0' || digits.length == 1

/-- The integer that a word spells, within 64 bits with a sign. -/
def integer? (word : List Char) : Option Int := do
  let n : Int ←
    match word with
    | '0' :: 'x' :: digits => (inBase? 16 digits).map Int.ofNat
    | '0' :: 'o' :: digits => (inBase? 8 digits).map Int.ofNat
    | '0' :: 'b' :: digits => (inBase? 2 digits).map Int.ofNat
    | '+' :: digits => if isDecimal digits then (inBase? 10 digits).map Int.ofNat else none
    | '-' :: digits =>
      if isDecimal digits then (inBase? 10 digits).map fun n => -Int.ofNat n else none
    | digits => if isDecimal digits then (inBase? 10 digits).map Int.ofNat else none
  if -0x8000000000000000 ≤ n ∧ n < 0x8000000000000000 then some n else none

/-- The integer or boolean that a word spells. Fractions and dates are no settings, so they are
left to be refused. -/
def word? (word : List Char) : Option Parsed :=
  match word with
  | ['t', 'r', 'u', 'e'] => some (.bool true)
  | ['f', 'a', 'l', 's', 'e'] => some (.bool false)
  | word => (integer? word).map fun n =>
      .number (if 0 ≤ n then .natural n.toNat else .other true)

end Blocklist.Toml
