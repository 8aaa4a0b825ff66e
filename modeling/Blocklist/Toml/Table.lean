import Blocklist.Toml.Line

set_option autoImplicit false

/-! # Tables of a TOML document

The lines of a document build one table. What is defined once is not defined again: a table has
one header, a key one value, and a table made by dotted keys is neither reopened by a header nor
extended from another table. A table that only stands on the way to another may still get its
header. -/

namespace Blocklist.Toml

/-- How a table came to be. -/
inductive Origin where
  /-- By its own header. -/
  | header
  /-- On the way to a table with a header. -/
  | passage
  /-- On the way to a value, by a dotted key. -/
  | dotted
deriving DecidableEq, Repr

/-- What stands under a name. -/
inductive Item where
  | value (v : Parsed)
  | table (origin : Origin) (members : List (String × Item))
  | tables (elements : List (List (String × Item)))

/-- The members of a table, in the order in which they were made. -/
abbrev Members := List (String × Item)

namespace Members

/-- What stands under a name. -/
def find? (members : Members) (name : String) : Option Item :=
  members.lookup name

/-- The members with what stands under a name replaced, or put at the end. -/
def put (members : Members) (name : String) (item : Item) : Members :=
  if members.any (·.1 == name) then
    members.map fun m => if m.1 == name then (name, item) else m
  else members ++ [(name, item)]

/-- Changes the table at a path, given how the table at hand came to be; so the change is told how
the table that it arrives at came to be. Tables that are missing on the way are made, by the way
`origin`; a dotted way does not lead through a table that has a header. In a list of tables the way
leads through the last. -/
def modify (origin : Origin) (change : Origin → Members → Option Members) :
    Origin → List String → Members → Option Members
  | here, [], members => change here members
  | _, name :: rest, members =>
    match members.find? name with
    | none => (modify origin change origin rest []).map fun inner =>
        members.put name (.table origin inner)
    | some (.table made inner) =>
      if origin = .dotted ∧ made = .header then none
      else
        (modify origin change made rest inner).map fun inner =>
          members.put name (.table made inner)
    | some (.tables elements) =>
      match elements.getLast? with
      | none => none
      | some last =>
        (modify origin change .header rest last).map fun last =>
          members.put name (.tables (elements.dropLast ++ [last]))
    | some (.value _) => none

/-- Opens the table under a name by its header. -/
def openTable (name : String) (members : Members) : Option Members :=
  match members.find? name with
  | none => some (members.put name (.table .header []))
  | some (.table .passage inner) => some (members.put name (.table .header inner))
  | some _ => none

/-- Opens one more table in the list of tables under a name. -/
def openItem (name : String) (members : Members) : Option Members :=
  match members.find? name with
  | none => some (members.put name (.tables [[]]))
  | some (.tables elements) => some (members.put name (.tables (elements ++ [[]])))
  | some _ => none

/-- Sets the value under a name, once. -/
def setValue (name : String) (v : Parsed) (members : Members) : Option Members :=
  if members.any (·.1 == name) then none else some (members.put name (.value v))

/-- Sets a value at a path below the table at hand. The last table on a dotted way must itself
have been made by dotted keys. -/
def setPath (path : List String) (v : Parsed) (members : Members) : Option Members :=
  match path.reverse with
  | [] => none
  | [name] => setValue name v members
  | name :: above =>
    let set := fun made members => if made = .dotted then setValue name v members else none
    modify .dotted set .dotted above.reverse members

end Members

/-- The root table so far and the path of the table that is open. -/
structure Draft where
  root : Members
  path : List String

namespace Draft

/-- Opens a table at a path, `open?` being what happens in the table above it. -/
def openAt (draft : Draft) (path : List String) (open? : String → Members → Option Members) :
    Option Draft :=
  match path.reverse with
  | [] => none
  | name :: above =>
    (Members.modify .passage (fun _ => open? name) .header above.reverse draft.root).map
      fun root => ⟨root, path⟩

/-- One more line. -/
def add (draft : Draft) : Line → Option Draft
  | .table path => draft.openAt path Members.openTable
  | .tableItem path => draft.openAt path Members.openItem
  | .set path v =>
    (Members.modify .passage (fun _ => Members.setPath path v) .header draft.path draft.root).map
      fun root => { draft with root }

end Draft

mutual

/-- An item as a value. -/
def Item.toValue : Item → Parsed
  | .value v => v
  | .table _ members => .record (membersToValues members)
  | .tables elements => .list (elementsToValues elements)

/-- The members of a table as members of a record. -/
def membersToValues : List (String × Item) → List (Option String × Parsed)
  | [] => []
  | (name, item) :: rest => (some name, item.toValue) :: membersToValues rest

/-- The tables of a list as records. -/
def elementsToValues : List (List (String × Item)) → List Parsed
  | [] => []
  | members :: rest => .record (membersToValues members) :: elementsToValues rest

end

/-- The value of a document. -/
def parse? (text : String) : Option Parsed := do
  let lines ← lines? text
  let draft ← lines.foldlM Draft.add ⟨[], []⟩
  some (.record (membersToValues draft.root))

end Blocklist.Toml
