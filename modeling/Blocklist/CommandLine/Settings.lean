import Blocklist.FilterList.Options
import Blocklist.Override.Config
import Blocklist.Toml.Table

set_option autoImplicit false

/-! # Settings files

A settings file is a TOML document with a table for compilations and one for the overrides, either
of which may be missing. -/

namespace Blocklist.CommandLine

/-- What a settings file says. -/
structure Settings where
  compile : FilterList.Options
  overrides : Override.Config
deriving DecidableEq, Repr

namespace Settings

/-- The settings where there is no file. -/
def standard : Settings := ⟨default, .standard⟩

/-- The tables of a settings file. -/
def form : RecordForm where
  fields := ["compile", "overrides"]
  closed := true
  mayStop := true

/-- Whether a TOML value stands for nothing: a table or a list that is empty. -/
def isNothing : Parsed → Bool
  | .record members => members.isEmpty
  | .list items => items.isEmpty
  | _ => false

/-- The settings that a document spells. -/
def ofToml? (text : String) : Option Settings := do
  let field ← form.read? (← Toml.parse? text)
  some {
    compile := ← fieldOr standard.compile FilterList.Options.read? (field "compile")
    overrides := ← fieldOr standard.overrides (Override.Config.read? isNothing) (field "overrides")
  }

end Settings

end Blocklist.CommandLine
