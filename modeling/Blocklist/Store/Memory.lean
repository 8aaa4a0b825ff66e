import Blocklist.Store.State

set_option autoImplicit false

/-! # Stores

A store holds the persisted state and the revision of its last change. A commit names the revision
that it was derived from and is accepted only while that one is current; so nobody overwrites a
change without having seen it. -/

namespace Blocklist

/-- Why a store does not do what it is asked. -/
inductive StoreError where
  | conflict (expected found : UInt64)
  | io (path cause : String)
  | corrupt (path cause : String)
  | unavailable (reason : String)
deriving DecidableEq, Repr

/-- The wording of an error. -/
def StoreError.message : StoreError → String
  | conflict expected found =>
    "State changed concurrently: expected revision " ++ toString expected ++ ", found "
      ++ toString found
  | io path cause => "State I/O error on '" ++ path ++ "': " ++ cause
  | corrupt path cause => "Corrupt state file '" ++ path ++ "': " ++ cause
  | unavailable reason => "State store unavailable: " ++ reason

/-- A store that holds its content in memory. -/
structure MemoryStore where
  current : Versioned

namespace MemoryStore

/-- A store into which nothing was written. -/
def empty : MemoryStore := ⟨.unwritten⟩

/-- A store that starts with a state, at revision 1. -/
def withState (state : PersistedState) : MemoryStore := ⟨⟨1, state⟩⟩

/-- The state and its revision. -/
def load (store : MemoryStore) : Versioned := store.current

/-- Replaces the state if `expected` is the current revision; answers the new revision. -/
def commit (store : MemoryStore) (expected : UInt64) (state : PersistedState) :
    Except StoreError UInt64 × MemoryStore :=
  if store.current.revision = expected then
    let current : Versioned := ⟨store.current.revision + 1, state⟩
    (.ok current.revision, { store with current })
  else (.error (.conflict expected store.current.revision), store)

end MemoryStore

end Blocklist
