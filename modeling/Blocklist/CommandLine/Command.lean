import Blocklist.CommandLine.Grammar
import Blocklist.FilterList.Options
import Blocklist.Override.Request
import Blocklist.Text.Digits

set_option autoImplicit false

/-! # Commands

What can be asked for on the command line: to compile a filter list, to remove its repeated
patterns, to validate an artifact, and to see or change the overrides in a state file. Without the
name of a command the options are those of a compilation. -/

namespace Blocklist.CommandLine

/-! ## Numbers as arguments -/

/-- The number that digits spell, with a plus sign allowed in front; below `bound`. -/
def natOfWord? (bound : Nat) (word : List Char) : Option Nat :=
  let digits := match word with
    | '+' :: rest => rest
    | word => word
  if digits.isEmpty || !digits.all Char.isDigit then none
  else
    let n := Text.digitsValue digits
    if n < bound then some n else none

/-- A word as a number of 32 bits. Zero may have a minus sign. -/
def uint32OfWord? (word : String) : Option UInt32 :=
  match word.toList with
  | '-' :: rest =>
    if rest.head? == some '+' then none
    else (natOfWord? 1 rest).map UInt32.ofNat
  | cs => (natOfWord? UInt32.size cs).map UInt32.ofNat

/-- A word as a number of 64 bits. -/
def uint64OfWord? (word : String) : Option UInt64 :=
  (natOfWord? UInt64.size word.toList).map UInt64.ofNat

/-! ## Commands -/

/-- What the command line says about a compilation; it goes before the settings file. -/
structure CompileFlags where
  startId : Option UInt32
  priority : Option UInt32
  maxDomainLength : Option UInt64
  dedupe : Bool
deriving DecidableEq, Repr

/-- The options of a compilation under the flags. -/
def CompileFlags.apply (flags : CompileFlags) (options : FilterList.Options) :
    FilterList.Options where
  startId := flags.startId.getD options.startId
  priority := flags.priority.getD options.priority
  maxDomainLength := flags.maxDomainLength.getD options.maxDomainLength
  dedupe := options.dedupe || flags.dedupe

/-- What is asked for. -/
inductive Command where
  /-- A compilation. Where no command is named, the input and the output may be missing. -/
  | compile (input output : Option String) (flags : CompileFlags) (settings : Option String)
    (verbose : Bool)
  | dedupe (input output : String)
  | validate (input : String)
  | overrides (state : String) (artifact settings : Option String) (request : Override.Request)
deriving DecidableEq, Repr

/-! ## The words for them -/

namespace Words

/-- A path is any word but the empty one. -/
def path : OptionKind := .value (!·.isEmpty)

/-- The file to read. -/
def input : OptionSpec := ⟨"input", some 'i', path⟩

/-- The file to write. -/
def output : OptionSpec := ⟨"output", some 'o', path⟩

/-- The options of a compilation that go before the settings file. -/
def compileFlags : List OptionSpec :=
  [⟨"start-id", none, .value fun v => (uint32OfWord? v).isSome⟩,
   ⟨"priority", none, .value fun v => (uint32OfWord? v).isSome⟩,
   ⟨"max-domain-length", none, .value fun v => (uint64OfWord? v).isSome⟩,
   ⟨"dedupe", none, .flag⟩]

/-- Asks for help. -/
def help : OptionSpec := ⟨"help", some 'h', .help⟩

/-- The options of every command. -/
def common : List OptionSpec :=
  [⟨"config", some 'c', path⟩, ⟨"verbose", some 'v', .count⟩, help]

/-- A command with one operand or none and no options of its own. -/
def action (operands : Nat) : CommandSpec :=
  ⟨[help], [], operands, [], false, false⟩

/-- The actions on the overrides. -/
def actions : List (String × CommandSpec) :=
  [("exempt", action 1), ("block", action 1), ("check", action 1), ("list", action 0),
   ("status", action 0), ("enable", action 0), ("disable", action 0)]

/-- The commands. -/
def commands : List (String × CommandSpec) :=
  [("compile",
    ⟨input :: output :: compileFlags ++ common, ["input", "output"], 0, [], false, false⟩),
   ("dedupe", ⟨input :: output :: common, ["input", "output"], 0, [], false, false⟩),
   ("validate", ⟨input :: common, ["input"], 0, [], false, false⟩),
   ("overrides",
    ⟨⟨"state", some 's', path⟩ :: ⟨"artifact", none, path⟩ :: common, ["state"], 0, actions,
      true, false⟩)]

/-- Everything that may follow the name of the program. -/
def program : CommandSpec where
  options := input :: output :: compileFlags ++ common ++ [⟨"version", some 'V', .version⟩]
  required := []
  operands := 0
  commands := commands
  needsCommand := false
  optionsExclude := true

end Words

/-- The compilation that the options ask for. -/
def compileOf (given : Given) : Command :=
  .compile (given.value? "input") (given.value? "output")
    { startId := (given.value? "start-id").bind uint32OfWord?
      priority := (given.value? "priority").bind uint32OfWord?
      maxDomainLength := (given.value? "max-domain-length").bind uint64OfWord?
      dedupe := given.has "dedupe" }
    (given.value? "config") (given.has "verbose")

/-- The request that an action on the overrides asks for. -/
def requestOf? (name : String) (operands : List String) : Option Override.Request :=
  match name, operands with
  | "exempt", [domain] => some (.setDomainBlocking domain false)
  | "block", [domain] => some (.setDomainBlocking domain true)
  | "check", [domain] => some (.isDomainExempted domain)
  | "list", [] => some .listExemptions
  | "status", [] => some .getStatus
  | "enable", [] => some (.setGlobalEnabled true)
  | "disable", [] => some (.setGlobalEnabled false)
  | _, _ => none

/-- The command that was given. -/
def Command.ofGiven? (given : Given) : Option Command :=
  match given.command with
  | none => some (compileOf given)
  | some (name, inner) =>
    match name, inner.value? "input", inner.value? "output", inner.value? "state" with
    | "compile", _, _, _ => some (compileOf inner)
    | "dedupe", some input, some output, _ => some (.dedupe input output)
    | "validate", some input, _, _ => some (.validate input)
    | "overrides", _, _, some state => do
      let (action, operands) ← inner.command
      let request ← requestOf? action operands.operands
      some (.overrides state (inner.value? "artifact") (inner.value? "config") request)
    | _, _, _, _ => none

/-- The command that words ask for, or what ends their reading. -/
def Command.parse (words : List String) : Except Stop Command := do
  let given ← readWords Words.program .start words
  match Command.ofGiven? given with
  | some command => .ok command
  | none => .error (.misuse .missingCommand)

end Blocklist.CommandLine
