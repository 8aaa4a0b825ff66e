set_option autoImplicit false

/-! # Structured values

The data that settings, rules and messages are written in: null, booleans, numbers, texts, lists
and records. Texts and numbers are parameters, because what is written and what is read differ in
them: a program writes texts and natural numbers, while a document that is read may hold numbers
of other kinds, and string literals that spell no text. -/

namespace Blocklist

/-- A structured value with texts of type `σ` and numbers of type `ν`. A record keeps its members
in the order in which they are written, repeated names included. -/
inductive Value (σ ν : Type) where
  | null
  | bool (b : Bool)
  | number (n : ν)
  | text (s : σ)
  | list (items : List (Value σ ν))
  | record (members : List (σ × Value σ ν))

/-- A value to be written. -/
abbrev Written := Value String Nat

/-- A number that was read: a natural number written without fraction, exponent or sign, or any
other, of which only matters whether it lies in the range of a double. -/
inductive Numeral where
  | natural (n : Nat)
  | other (inRange : Bool)
deriving DecidableEq, Repr

/-- A value that was read. A string literal that spells no text is `none`. -/
abbrev Parsed := Value (Option String) Numeral

namespace Value

variable {σ τ ν μ : Type}

mutual

/-- The value with its texts and numbers replaced. -/
def map (f : σ → τ) (g : ν → μ) : Value σ ν → Value τ μ
  | null => null
  | bool b => bool b
  | number n => number (g n)
  | text s => text (f s)
  | list items => list (mapItems f g items)
  | record members => record (mapMembers f g members)

/-- The items of a list with their texts and numbers replaced. -/
def mapItems (f : σ → τ) (g : ν → μ) : List (Value σ ν) → List (Value τ μ)
  | [] => []
  | item :: rest => map f g item :: mapItems f g rest

/-- The members of a record with their texts and numbers replaced. -/
def mapMembers (f : σ → τ) (g : ν → μ) : List (σ × Value σ ν) → List (τ × Value τ μ)
  | [] => []
  | (name, value) :: rest => (f name, map f g value) :: mapMembers f g rest

end

theorem mapItems_eq (f : σ → τ) (g : ν → μ) (items : List (Value σ ν)) :
    mapItems f g items = items.map (map f g) := by
  induction items with
  | nil => rfl
  | cons item rest ih => simp [mapItems, ih]

theorem mapMembers_eq (f : σ → τ) (g : ν → μ) (members : List (σ × Value σ ν)) :
    mapMembers f g members = members.map fun (name, value) => (f name, map f g value) := by
  induction members with
  | nil => rfl
  | cons member rest ih => simp [mapMembers, ih]

end Value

/-- A written value as a reader of it sees it. -/
def Written.parsed : Written → Parsed :=
  Value.map some .natural

end Blocklist
