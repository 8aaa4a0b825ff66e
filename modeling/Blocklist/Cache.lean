set_option autoImplicit false

/-! # Values that expire -/

namespace Blocklist

/-- At most one value, with the time up to which it counts. Times are in milliseconds. -/
structure Cache (α : Type) where
  /-- How long a value counts. -/
  ttl : Nat
  slot : Option (α × Nat)

namespace Cache

variable {α : Type}

/-- A cache without a value. -/
def new (ttl : Nat) : Cache α := ⟨ttl, none⟩

/-- The value, if it still counts. -/
def get? (cache : Cache α) (now : Nat) : Option α :=
  match cache.slot with
  | some (a, expiry) => if now < expiry then some a else none
  | none => none

/-- The cache with a new value. -/
def insert (cache : Cache α) (now : Nat) (a : α) : Cache α :=
  { cache with slot := some (a, now + cache.ttl) }

/-- The cache without its value. -/
def invalidate (cache : Cache α) : Cache α :=
  { cache with slot := none }

@[simp] theorem get?_new (ttl now : Nat) : (new ttl : Cache α).get? now = none := rfl

theorem get?_insert (cache : Cache α) (now later : Nat) (a : α) :
    (cache.insert now a).get? later = if later < now + cache.ttl then some a else none := rfl

@[simp] theorem get?_invalidate (cache : Cache α) (now : Nat) :
    cache.invalidate.get? now = none := rfl

end Cache

end Blocklist
