import Blocklist.Text.Digits
import Blocklist.Value.Basic

set_option autoImplicit false

/-! # Writing JSON

Two layouts of one format: compact, with no blanks at all, and pretty, with one item or member a
line, two blanks of indentation a level and a blank after a colon. In both an empty list is `[]`
and an empty record a pair of braces with nothing between. -/

namespace Blocklist.Json

/-- The blanks of a layout. -/
structure Layout where
  /-- What comes before an item or an end bracket at a depth. -/
  newline : Nat → List Char
  /-- What comes after a colon. -/
  afterColon : List Char

/-- No blanks. -/
def Layout.compact : Layout := ⟨fun _ => [], []⟩

/-- A line for each item, indented by two blanks a level. -/
def Layout.pretty : Layout := ⟨fun depth => '\n' :: List.replicate (2 * depth) ' ', [' ']⟩

/-- A character inside a string literal. Quotes, backslashes and the characters below the space
are escaped, by a letter where there is one. -/
def escape (c : Char) : List Char :=
  match c with
  | '"' => ['\\', '"']
  | '\\' => ['\\', '\\']
  | '\x08' => ['\\', 'b']
  | '\x0c' => ['\\', 'f']
  | '\n' => ['\\', 'n']
  | '\r' => ['\\', 'r']
  | '\t' => ['\\', 't']
  | c =>
    if c.toNat < 0x20 then
      ['\\', 'u', '0', '0', Text.hexChar (c.toNat / 16), Text.hexChar (c.toNat % 16)]
    else [c]

/-- A string literal. -/
def quote (s : String) : List Char :=
  '"' :: s.toList.flatMap escape ++ ['"']

mutual

/-- A value in a layout, at a depth. -/
def write (layout : Layout) (depth : Nat) : Written → List Char
  | .null => ['n', 'u', 'l', 'l']
  | .bool true => ['t', 'r', 'u', 'e']
  | .bool false => ['f', 'a', 'l', 's', 'e']
  | .number n => Nat.toDigits 10 n
  | .text s => quote s
  | .list [] => ['[', ']']
  | .list (item :: rest) =>
    '[' :: layout.newline (depth + 1) ++ write layout (depth + 1) item
      ++ writeItems layout (depth + 1) rest ++ layout.newline depth ++ [']']
  | .record [] => ['{', '}']
  | .record ((name, value) :: rest) =>
    '{' :: layout.newline (depth + 1) ++ quote name ++ ':' :: layout.afterColon
      ++ write layout (depth + 1) value
      ++ writeMembers layout (depth + 1) rest ++ layout.newline depth ++ ['}']

/-- The items after the first. -/
def writeItems (layout : Layout) (depth : Nat) : List Written → List Char
  | [] => []
  | item :: rest =>
    ',' :: layout.newline depth ++ write layout depth item ++ writeItems layout depth rest

/-- The members after the first. -/
def writeMembers (layout : Layout) (depth : Nat) : List (String × Written) → List Char
  | [] => []
  | (name, value) :: rest =>
    ',' :: layout.newline depth ++ quote name ++ ':' :: layout.afterColon
      ++ write layout depth value ++ writeMembers layout depth rest

end

/-- The compact text of a value. -/
def compact (v : Written) : String :=
  String.ofList (write .compact 0 v)

/-- The pretty text of a value. -/
def pretty (v : Written) : String :=
  String.ofList (write .pretty 0 v)

end Blocklist.Json
