import Blocklist.Log
import Blocklist.Text.Lines
import Blocklist.Text.Trim
import Std.Data.HashSet

set_option autoImplicit false

/-! # Removing repeated patterns

A filter list without the lines that repeat a pattern. Every other line stays where it is,
repeated or not, and patterns are compared as they are written. -/

namespace Blocklist.FilterList

/-- A filter list without repeated patterns. -/
structure Deduplicated where
  text : String
  /-- The number of different patterns. -/
  uniqueRules : Nat
  /-- The patterns that were left out, in order. -/
  removedRules : List String
deriving DecidableEq, Repr

/-- The number of lines that were left out. -/
def Deduplicated.removed (d : Deduplicated) : Nat :=
  d.removedRules.length

/-- Whether a line has the marks of a pattern at both ends. -/
def isRuleLine (line : List Char) : Bool :=
  ['|', '|'].isPrefixOf line && line.getLast? == some '^'

/-- The lines kept and left out so far, last first, and the patterns among those kept. -/
structure Strainer where
  kept : List (List Char)
  removed : List String
  seen : Std.HashSet String

/-- Keeps one more line or leaves it out. -/
def Strainer.add (strainer : Strainer) (line : List Char) : Strainer :=
  let line := Text.trimEnd (· == '\r') line
  if isRuleLine line then
    let pattern := String.ofList line
    if strainer.seen.contains pattern then
      { strainer with removed := pattern :: strainer.removed }
    else
      { strainer with kept := line :: strainer.kept, seen := strainer.seen.insert pattern }
  else { strainer with kept := line :: strainer.kept }

/-- The filter list without repeated patterns, every line ended by a newline. -/
def dedupe (text : String) : Deduplicated :=
  let strainer := (Text.lines text.toList).foldl Strainer.add ⟨[], [], ∅⟩
  { text := String.ofList (Text.unlines strainer.kept.reverse)
    uniqueRules := strainer.seen.size
    removedRules := strainer.removed.reverse }

/-- The log of the removal: a record for every pattern left out, and a summary. -/
def Deduplicated.log (d : Deduplicated) : List LogRecord :=
  d.removedRules.map (fun pattern => ⟨.debug, "Removed duplicate: " ++ pattern⟩)
    ++ [⟨.info, "Deduplicated: " ++ toString d.uniqueRules ++ " unique rules, "
      ++ toString d.removed ++ " duplicates removed"⟩]

end Blocklist.FilterList
