import Blocklist.Toml.Scalar

set_option autoImplicit false

/-! # Lines of a TOML document

A document is a sequence of lines that open a table or set a key. A key is a path of names joined
by dots. Values may nest: lists may run over several lines, tables on one line may not. -/

namespace Blocklist.Toml

/-- What a line does. -/
inductive Line where
  /-- Opens the table at a path. -/
  | table (path : List String)
  /-- Opens one more table in the list of tables at a path. -/
  | tableItem (path : List String)
  /-- Sets the value at a path below the table that is open. -/
  | set (path : List String) (v : Parsed)

/-! ## Keys -/

/-- The characters of a name without quotes. -/
def isBareChar (c : Char) : Bool :=
  c.isAlphanum || c == '_' || c == '-'

/-- One name of a key. -/
def name? : Front String := fun cs =>
  match lineText? cs with
  | some (name, rest) => some (String.ofList name, rest)
  | none =>
    let name := cs.takeWhile isBareChar
    if name.isEmpty then none else some (String.ofList name, cs.dropWhile isBareChar)

/-- The names of a key; `fuel` bounds their number. -/
def path? : Nat → Front (List String)
  | 0, _ => none
  | fuel + 1, cs => do
    let (name, rest) ← name? (skipSpace cs)
    match skipSpace rest with
    | '.' :: rest =>
      let (names, rest) ← path? fuel rest
      some (name :: names, rest)
    | rest => some ([name], rest)

/-! ## Blanks and comments -/

/-- The rest of a line after its content: blanks, a comment, and the line end. -/
def endOfLine? (cs : List Char) : Option (List Char) :=
  let rest := match skipSpace cs with
    | '#' :: rest => rest.dropWhile isPlain
    | rest => rest
  if rest.isEmpty then some [] else newline? rest

/-- The text without the blanks, line ends and comments at its front; `fuel` bounds the lines. -/
def skipLines : Nat → List Char → List Char
  | 0, cs => cs
  | fuel + 1, cs =>
    let rest := skipSpace cs
    match endOfLine? rest with
    | some rest => if rest.isEmpty then [] else skipLines fuel rest
    | none => rest

/-! ## Inline tables -/

/-- The members of a table with a value set at a path. Tables along the path are made as needed,
and nothing that was set is set again. -/
def setInline? (members : List (Option String × Parsed)) :
    List String → Parsed → Option (List (Option String × Parsed))
  | [], _ => none
  | [name], v =>
    if members.any (·.1 == some name) then none else some (members ++ [(some name, v)])
  | name :: rest, v =>
    match members.find? (·.1 == some name) with
    | none => (setInline? [] rest v).map fun inner => members ++ [(some name, .record inner)]
    | some (_, .record inner) =>
      (setInline? inner rest v).map fun inner =>
        members.map fun m => if m.1 == some name then (m.1, .record inner) else m
    | some _ => none

/-! ## Values -/

/-- How deep values may nest. -/
def nestingLimit : Nat := 80

mutual

/-- A value; `depth` bounds the nesting and `fuel` the number of parts. -/
def value? (depth : Nat) : Nat → Front Parsed
  | 0, _ => none
  | fuel + 1, cs =>
    match cs with
    | '[' :: rest => if depth = 0 then none else items? (depth - 1) fuel [] rest
    | '{' :: rest =>
      if depth = 0 then none
      else
        match skipSpace rest with
        | '}' :: rest => some (.record [], rest)
        | rest => members? (depth - 1) fuel [] rest
    | cs =>
      match text? cs with
      | some (text, rest) => some (.text (some (String.ofList text)), rest)
      | none => (word? (cs.takeWhile isWordChar)).map fun v => (v, cs.dropWhile isWordChar)

/-- The items of a list up to its end; a comma may follow the last one. -/
def items? (depth : Nat) : Nat → List Parsed → Front Parsed
  | 0, _, _ => none
  | fuel + 1, found, cs =>
    match skipLines cs.length cs with
    | ']' :: rest => some (.list found.reverse, rest)
    | cs =>
      match value? depth fuel cs with
      | none => none
      | some (v, rest) =>
        match skipLines rest.length rest with
        | ',' :: rest => items? depth fuel (v :: found) rest
        | ']' :: rest => some (.list (v :: found).reverse, rest)
        | _ => none

/-- The members of a table on one line up to its end. -/
def members? (depth : Nat) : Nat → List (Option String × Parsed) → Front Parsed
  | 0, _, _ => none
  | fuel + 1, found, cs =>
    match path? cs.length cs with
    | some (path, '=' :: rest) =>
      match value? depth fuel (skipSpace rest) with
      | none => none
      | some (v, rest) =>
        match setInline? found path v, skipSpace rest with
        | some found, ',' :: rest => members? depth fuel found rest
        | some found, '}' :: rest => some (.record found, rest)
        | _, _ => none
    | _ => none

end

/-! ## Lines -/

/-- The path of a table header up to its bracket. -/
def header? : Front (List String) := fun cs => do
  match ← path? cs.length cs with
  | (path, ']' :: rest) => some (path, rest)
  | _ => none

/-- What a line does, up to its end. -/
def line? : Front Line := fun cs =>
  match cs with
  | '[' :: '[' :: rest => do
    match ← header? rest with
    | (path, ']' :: rest) => some (.tableItem path, rest)
    | _ => none
  | '[' :: rest => do
    let (path, rest) ← header? rest
    some (.table path, rest)
  | cs => do
    match ← path? cs.length cs with
    | (path, '=' :: rest) =>
      let rest := skipSpace rest
      let (v, rest) ← value? nestingLimit (2 * rest.length + 1) rest
      some (.set path v, rest)
    | _ => none

/-- The lines of a text; `fuel` bounds their number. -/
def linesFrom? : Nat → List Line → List Char → Option (List Line)
  | 0, _, _ => none
  | fuel + 1, found, cs =>
    match skipLines cs.length cs with
    | [] => some found.reverse
    | cs => do
      let (line, rest) ← line? cs
      let rest ← endOfLine? rest
      linesFrom? fuel (line :: found) rest

/-- The lines of a document. A byte order mark in front says nothing. -/
def lines? (text : String) : Option (List Line) :=
  let cs := match text.toList with
    | '\ufeff' :: rest => rest
    | cs => cs
  linesFrom? (cs.length + 1) [] cs

end Blocklist.Toml
