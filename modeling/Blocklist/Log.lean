set_option autoImplicit false

/-! # Log records -/

namespace Blocklist

/-- How much a record matters. -/
inductive LogLevel where
  | debug
  | info
  | warn
deriving DecidableEq, Repr

/-- The name of a level. -/
def LogLevel.name : LogLevel → String
  | debug => "DEBUG"
  | info => "INFO"
  | warn => "WARN"

/-- A message with its level. -/
structure LogRecord where
  level : LogLevel
  message : String
deriving DecidableEq, Repr

/-- A record on one line, its level first. -/
def LogRecord.render (r : LogRecord) : String :=
  r.level.name ++ " " ++ r.message

end Blocklist
