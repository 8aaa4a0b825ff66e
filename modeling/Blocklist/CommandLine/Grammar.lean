set_option autoImplicit false

/-! # Words of a command line

The words of a command line are options, operands and the names of commands. An option has a long
name after two dashes and may have a letter after one; letters may share a dash. A value follows
its option as the next word, after an equals sign, or directly after the letter. Two dashes alone
make operands of all words after them. Commands nest: after the name of one, its own options and
operands follow.

The words are read from left to right, and the first thing that ends the reading decides: a request
for help, or a word that does not fit. An option is settled, its value checked, when the next one
begins or the words of its command end. -/

namespace Blocklist.CommandLine

/-- What an option does. -/
inductive OptionKind where
  /-- Takes a value that passes a check, at most once. -/
  | value (accepts : String → Bool)
  /-- Stands alone, at most once. -/
  | flag
  /-- Stands alone and counts. -/
  | count
  | help
  | version

/-- An option. -/
structure OptionSpec where
  name : String
  letter : Option Char
  kind : OptionKind

/-- What may follow the name of a command. -/
structure CommandSpec where
  options : List OptionSpec
  /-- The names of the options that must be given. -/
  required : List String
  /-- How many operands there are; all of them must be given. -/
  operands : Nat
  commands : List (String × CommandSpec)
  /-- Whether a command must be named. -/
  needsCommand : Bool
  /-- Whether options here keep a command from being named. -/
  optionsExclude : Bool

/-- What was given: the options with their values in order, the operands, and the command with what
was given to it. An option that stands alone has an empty value. -/
structure Given where
  options : List (String × String)
  operands : List String
  command : Option (String × Given)

/-- Why words do not fit. -/
inductive UsageError where
  | unknownOption (word : String)
  | missingValue (option : String)
  | invalidValue (option value : String)
  | repeatedOption (option : String)
  | needlessValue (option : String)
  | unexpectedWord (word : String)
  | unknownCommand (name : String)
  | missingOption (option : String)
  | missingOperand
  | missingCommand
deriving DecidableEq, Repr

/-- The wording of an error. -/
def UsageError.message : UsageError → String
  | unknownOption word => "unknown option '" ++ word ++ "'"
  | missingValue option => "option '--" ++ option ++ "' needs a value"
  | invalidValue option value =>
    "invalid value '" ++ value ++ "' for option '--" ++ option ++ "'"
  | repeatedOption option => "option '--" ++ option ++ "' is given twice"
  | needlessValue option => "option '--" ++ option ++ "' takes no value"
  | unexpectedWord word => "unexpected argument '" ++ word ++ "'"
  | unknownCommand name => "unknown command '" ++ name ++ "'"
  | missingOption option => "option '--" ++ option ++ "' is missing"
  | missingOperand => "an argument is missing"
  | missingCommand => "a command is missing"

/-- What ends the reading early. -/
inductive Stop where
  | help
  | version
  | misuse (e : UsageError)
deriving DecidableEq, Repr

/-- The words of one command that were read. -/
structure Scan where
  /-- The options that are settled, with their values. -/
  settled : List (String × String)
  /-- The option that is not settled yet, with its value once it has come. -/
  pending : Option (OptionSpec × Option String)
  operands : List String
  /-- Whether two dashes were read. -/
  onlyOperands : Bool

namespace Scan

/-- Nothing is read. -/
def start : Scan := ⟨[], none, [], false⟩

/-- Whether anything was given. -/
def isBlank (s : Scan) : Bool :=
  s.settled.isEmpty && s.pending.isNone && s.operands.isEmpty

/-- Whether the next word is the value of an option. -/
def awaitsValue (s : Scan) : Bool :=
  match s.pending with
  | some (_, none) => true
  | _ => false

/-- Adds an option with a value, which must be its first. -/
def give (s : Scan) (option : OptionSpec) (value : String) : Except Stop Scan :=
  if s.settled.any (·.1 == option.name) then .error (.misuse (.repeatedOption option.name))
  else .ok { s with settled := s.settled ++ [(option.name, value)] }

/-- Adds an option with a value that passes its check. -/
def giveChecked (s : Scan) (option : OptionSpec) (value : String) : Except Stop Scan := do
  let s ← s.give option value
  match option.kind with
  | .value accepts =>
    if accepts value then .ok s else .error (.misuse (.invalidValue option.name value))
  | _ => .ok s

/-- Settles the option that is pending. -/
def settle (s : Scan) : Except Stop Scan :=
  match s.pending with
  | none => .ok s
  | some (option, none) => .error (.misuse (.missingValue option.name))
  | some (option, some value) => { s with pending := none }.giveChecked option value

/-- An option without a value next to it. -/
def option (s : Scan) (o : OptionSpec) : Except Stop Scan := do
  let s ← s.settle
  match o.kind with
  | .value _ => .ok { s with pending := some (o, none) }
  | .flag => s.give o ""
  | .count => .ok { s with settled := s.settled ++ [(o.name, "")] }
  | .help => .error .help
  | .version => .error .version

/-- An option with a value next to it. -/
def optionWith (s : Scan) (o : OptionSpec) (value : String) : Except Stop Scan := do
  match o.kind with
  | .value _ => (← s.settle).giveChecked o value
  | _ => .error (.misuse (.needlessValue o.name))

/-- The letters after a dash. What follows the letter of an option with a value is the value, less
an equals sign in front of it. -/
def letters (spec : CommandSpec) (s : Scan) : List Char → Except Stop Scan
  | [] => .ok s
  | c :: rest =>
    match spec.options.find? (·.letter == some c) with
    | none => .error (.misuse (.unknownOption (String.ofList ['-', c])))
    | some o =>
      match o.kind, rest with
      | .value _, '=' :: value => s.optionWith o (String.ofList value)
      | .value _, c :: value => s.optionWith o (String.ofList (c :: value))
      | _, rest => do letters spec (← s.option o) rest

/-- A word after two dashes: a name, perhaps with an equals sign and a value. -/
def long (spec : CommandSpec) (s : Scan) (word : List Char) : Except Stop Scan :=
  let name := String.ofList (word.takeWhile (· != '='))
  match spec.options.find? (·.name == name), word.dropWhile (· != '=') with
  | none, _ => .error (.misuse (.unknownOption (String.ofList ('-' :: '-' :: word))))
  | some o, _ :: value => s.optionWith o (String.ofList value)
  | some o, [] => s.option o

/-- An operand. -/
def operand (spec : CommandSpec) (s : Scan) (word : String) : Except Stop Scan := do
  let s ← s.settle
  if s.operands.length < spec.operands then .ok { s with operands := s.operands ++ [word] }
  else .error (.misuse (.unexpectedWord word))

/-- A word that names no command. -/
def step (spec : CommandSpec) (s : Scan) (word : String) : Except Stop Scan :=
  if s.onlyOperands then s.operand spec word
  else
    match word.toList with
    | ['-', '-'] => .ok { s with onlyOperands := true }
    | '-' :: '-' :: rest => s.long spec rest
    | '-' :: c :: rest => s.letters spec (c :: rest)
    | _ =>
      match s.pending with
      | some (option, none) => .ok { s with pending := some (option, some word) }
      | _ => s.operand spec word

/-- Whether the next word may name a command. -/
def mayName (spec : CommandSpec) (s : Scan) : Bool :=
  !s.onlyOperands && !s.awaitsValue && !(spec.optionsExclude && !s.isBlank)
    && !spec.commands.isEmpty

/-- What was given to a command, once its words have ended. -/
def finish (spec : CommandSpec) (s : Scan) (command : Option (String × Given)) :
    Except Stop Given := do
  let s ← s.settle
  if spec.needsCommand && command.isNone then .error (.misuse .missingCommand)
  match spec.required.find? fun name => !s.settled.any (·.1 == name) with
  | some name => .error (.misuse (.missingOption name))
  | none =>
    if s.operands.length < spec.operands then .error (.misuse .missingOperand)
    else .ok ⟨s.settled, s.operands, command⟩

end Scan

/-- The name of the command that asks for help; it stands beside any other commands. -/
def helpCommand : String := "help"

/-- Help on the command that names lead to. -/
def helpOn (spec : CommandSpec) : List String → Stop
  | [] => .help
  | name :: rest =>
    match spec.commands.lookup name with
    | some inner => helpOn inner rest
    | none =>
      if name == helpCommand && !spec.commands.isEmpty && rest.isEmpty then .help
      else .misuse (.unknownCommand name)

/-- What words give to a command, the words before them being read already. -/
def readWords (spec : CommandSpec) (s : Scan) : List String → Except Stop Given
  | [] => s.finish spec none
  | word :: rest =>
    if s.mayName spec && word == helpCommand then .error (helpOn spec rest)
    else
      match if s.mayName spec then spec.commands.lookup word else none with
      | some inner => do
        let given ← readWords inner .start rest
        s.finish spec (some (word, given))
      | none => do readWords spec (← s.step spec word) rest

namespace Given

/-- The value of an option. -/
def value? (given : Given) (name : String) : Option String :=
  given.options.lookup name

/-- Whether an option was given. -/
def has (given : Given) (name : String) : Bool :=
  given.options.any (·.1 == name)

end Given

end Blocklist.CommandLine
