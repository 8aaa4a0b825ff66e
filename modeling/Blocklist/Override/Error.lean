import Blocklist.Engine
import Blocklist.Log
import Blocklist.Override.Config
import Blocklist.Store.Memory

set_option autoImplicit false

/-! # Errors and warnings of the overrides -/

namespace Blocklist

/-- Why an operation on the overrides fails. -/
inductive OverrideError where
  | invalidDomain (input : String)
  | engine (e : EngineError)
  | store (e : StoreError)
  /-- Somebody else changed the state between the look at it and the commit. -/
  | raceLost (expected found : UInt64)
  | ids (e : IdError)
  | timeout (domain : String) (milliseconds : UInt64)
  | config (e : Override.ConfigError)
deriving DecidableEq, Repr

namespace OverrideError

/-- The wording of an error. -/
def message : OverrideError → String
  | invalidDomain input => "Invalid domain '" ++ input ++ "'"
  | engine e => "Blocking engine call failed: " ++ e.message
  | store e => "State store failed: " ++ e.message
  | raceLost expected found =>
    "Lost a concurrent update (expected revision " ++ toString expected ++ ", found "
      ++ toString found ++ "), retry"
  | ids e => "Override id allocation failed: " ++ e.message
  | timeout domain milliseconds =>
    "Toggle for '" ++ domain ++ "' timed out after " ++ toString milliseconds ++ " ms"
  | config e => "Invalid override configuration: " ++ e.message

/-- Whether simply trying again may help. -/
def isRetryable : OverrideError → Bool
  | raceLost .. | timeout .. => true
  | _ => false

/-- An error of the store, a conflict being a lost race. -/
def ofStore : StoreError → OverrideError
  | .conflict expected found => raceLost expected found
  | e => store e

end OverrideError

namespace Override

/-- A time span as text: in seconds from one second on, else in milliseconds. -/
def spanText (milliseconds : UInt64) : String :=
  let n := milliseconds.toNat
  if n = 0 then "0ns"
  else if n < 1000 then toString n ++ "ms"
  else
    let digits := (toString (1000 + n % 1000)).toList.drop 1
    let decimals := (digits.reverse.dropWhile (· == '0')).reverse
    toString (n / 1000) ++ (if decimals.isEmpty then "" else "." ++ String.ofList decimals) ++ "s"

/-- What the overrides warn about. -/
inductive Warning where
  | toggleTimedOut (input : String) (milliseconds : UInt64)
  | requestFailed (e : OverrideError)
  /-- Hashed ids lie among those of compiled rules. -/
  | withinStaticRange (ids : IdPair) (domain : String)
  /-- Hashed ids are also those of another exempted domain. -/
  | collision (domain other : String)
  | notDropped (domain : String) (e : OverrideError)
  | reinstallFailed (domain : String)
  | withdrawn (domain : String)
  | notWithdrawn (domain : String) (e : EngineError)
  | notReinstated (domain : String) (e : EngineError)
  | notRestored (domain : String) (e : OverrideError)
  | notCleared (domain : String) (e : OverrideError)
  | rulesetReconciled (ruleset : String)
deriving DecidableEq, Repr

/-- The wording of a warning. -/
def Warning.message : Warning → String
  | toggleTimedOut input milliseconds =>
    "Toggle for " ++ input ++ " timed out after " ++ spanText milliseconds
  | requestFailed e => "Request failed: " ++ e.message
  | withinStaticRange ids domain =>
    "Override ids " ++ toString ids.incoming ++ "/" ++ toString ids.outgoing ++ " for " ++ domain
      ++ " fall inside the static rule range"
  | collision domain other =>
    "Override ids for " ++ domain ++ " collide with those of " ++ other
  | notDropped domain e =>
    "Could not drop " ++ domain ++ " after a failed reinstall: " ++ e.message
  | reinstallFailed domain =>
    "Reinstalling rules for " ++ domain ++ " failed, domain is blocked again"
  | withdrawn domain => "Withdrew uncommitted rules for " ++ domain
  | notWithdrawn domain e =>
    "Uncommitted rules for " ++ domain ++ " stay live until the next restore: " ++ e.message
  | notReinstated domain e => "Could not reinstate rules for " ++ domain ++ ": " ++ e.message
  | notRestored domain e => "Could not restore override for " ++ domain ++ ": " ++ e.message
  | notCleared domain e => "Could not clear stale rules for " ++ domain ++ ": " ++ e.message
  | rulesetReconciled ruleset =>
    "Static ruleset " ++ ruleset ++ " did not match the persisted switch, reconciled"

/-- The log record of a warning. -/
def Warning.record (w : Warning) : LogRecord :=
  ⟨.warn, w.message⟩

end Override

end Blocklist
