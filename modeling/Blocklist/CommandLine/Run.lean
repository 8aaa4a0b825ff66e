import Blocklist.Artifact
import Blocklist.CommandLine.Command
import Blocklist.CommandLine.Settings
import Blocklist.FilterList.Compile
import Blocklist.FilterList.Dedupe
import Blocklist.Override.Session

set_option autoImplicit false

/-! # Running commands

Each command reads files, does its work and reports: lines for the reader on success, one error
otherwise. Errors on files name the file and give a hint where the user can do something about
them. -/

namespace Blocklist.CommandLine

open Machine

/-! ## Errors -/

/-- Why a command fails. -/
inductive CommandError where
  /-- An option is missing that a compilation without a command name needs. -/
  | missing (option : String)
  | unreadableSettings (path cause : String)
  | invalidSettings (path : String)
  /-- A file cannot be read or written; the hint says what to check. -/
  | io (path cause hint : String)
  | notText (path : String) (fault : Text.Utf8Fault)
  | notCreated (path cause : String)
  | notWritten (path cause : String)
  | compile (e : FilterList.CompileError)
  | malformedArtifact
  | invalidArtifact (fault : Artifact.Fault)
  | overrides (e : OverrideError)
  /-- The response to a request is an error itself. -/
  | response (message : String)
deriving DecidableEq, Repr

/-- What to check when a filter list cannot be read. -/
def filterListHint : String := "check that --input names a readable filter list"

/-- What to check when an output cannot be written. -/
def outputHint : String := "check that the --output directory is writable"

/-- What to check when the artifact to validate cannot be read. -/
def inputArtifactHint : String := "check that --input names a compiled artifact"

/-- What to check when the artifact beside the overrides cannot be read. -/
def artifactHint : String := "check that --artifact names a compiled artifact"

/-- A hint on a line of its own. -/
def withHint (message hint : String) : String :=
  message ++ "\n  hint: " ++ hint

/-- The wording of an error. -/
def CommandError.message : CommandError → String
  | missing option => "Missing --" ++ option ++ " <path> (see --help)"
  | unreadableSettings path cause => "Failed to read config '" ++ path ++ "': " ++ cause
  | invalidSettings path => "Invalid config '" ++ path ++ "': not a settings document"
  | io path cause hint => withHint ("I/O error on '" ++ path ++ "': " ++ cause) hint
  | notText path fault => "'" ++ path ++ "' is not UTF-8 text: " ++ fault.message
  | notCreated path cause => "Failed to create '" ++ path ++ "': " ++ cause
  | notWritten path cause => withHint ("Failed to write '" ++ path ++ "': " ++ cause) outputHint
  | compile e => e.message
  | malformedArtifact => "Malformed artifact: not a list of rules"
  | invalidArtifact fault => "Invalid artifact: " ++ fault.message
  | overrides e => e.message
  | response message => message

/-- A run that may end with an error. -/
abbrev Task := ExceptT CommandError Machine.Run

/-- A call on a file, with its failure as an error of the command. -/
def orFail {α : Type} (toError : FileError → CommandError)
    (call : Machine.Run (Except FileError α)) : Task α :=
  ExceptT.mk do return (← call).mapError toError

/-! ## Files -/

/-- The text of a file. Content that is no text counts as unreadable. -/
def readText (path : String) (toError : String → CommandError) : Task String := do
  let content ← orFail (toError ·.cause) (read path)
  match Text.ofUtf8 content with
  | .ok text => return text
  | .error fault => throw (toError fault.message)

/-- The settings in a file, if there is one. -/
def loadSettings : Option String → Task Settings
  | none => return .standard
  | some path => do
    let text ← readText path (.unreadableSettings path)
    match Settings.ofToml? text with
    | some settings => return settings
    | none => throw (.invalidSettings path)

/-- The rules of an artifact. -/
def readArtifact (path hint : String) : Task (List Rule) := do
  let text ← readText path (.io path · hint)
  match Artifact.ofJson? text with
  | some rules => return rules
  | none => throw .malformedArtifact

/-- Writes a file and makes the directories above it. -/
def writeText (path text : String) (notCreated notWritten : String → String → CommandError) :
    Task Unit := do
  if let some directory := Path.directoryOf? path then
    orFail (notCreated directory ·.cause) (makeDirectory directory)
  orFail (notWritten path ·.cause) (write path text.toUTF8)

/-! ## Commands -/

/-- Lines, each ended by a newline. -/
def report (lines : List String) : String :=
  String.join (lines.map (· ++ "\n"))

/-- The report on a compilation. -/
def compileReport (input output : String) (c : FilterList.Compilation) (verbose : Bool) : String :=
  let stats := c.stats
  report <|
    ["Compiled '" ++ input ++ "' to '" ++ output ++ "'",
     "  Lines:    " ++ toString stats.totalLines,
     "  Rules:    " ++ toString stats.processedRules,
     "  Skipped:  " ++ toString stats.skippedLines ++ " (ignored " ++ toString stats.ignoredLines
       ++ ", rejected " ++ toString stats.rejectedLines ++ ", duplicates "
       ++ toString stats.duplicateLines ++ ")",
     "  Errors:   " ++ toString stats.errors]
    ++ if verbose then
      c.rejections.map fun r => "  line " ++ toString r.line ++ ": " ++ r.reason.message
    else []

/-- Compiles a filter list into an artifact. -/
def runCompile (input output : Option String) (flags : CompileFlags) (settings : Option String)
    (verbose : Bool) : Task String := do
  let some input := input | throw (.missing "input")
  let some output := output | throw (.missing "output")
  let options := flags.apply (← loadSettings settings).compile
  let bytes ← orFail (.io input ·.cause filterListHint) (read input)
  let compilation ← ExceptT.mk (pure ((FilterList.compileBytes options bytes).mapError .compile))
  let io := fun path cause => CommandError.io path cause outputHint
  writeText output (Artifact.toJson compilation.rules) io io
  return compileReport input output compilation verbose

/-- Writes a filter list without its repeated patterns. -/
def runDedupe (input output : String) : Task String := do
  let bytes ← orFail (.io input ·.cause filterListHint) (read input)
  let text ← ExceptT.mk (pure ((Text.ofUtf8 bytes).mapError (.notText input)))
  let result := FilterList.dedupe text
  writeText output result.text .notCreated .notWritten
  return report
    ["Deduplicated '" ++ input ++ "' to '" ++ output ++ "'",
     "  Unique rules:  " ++ toString result.uniqueRules,
     "  Removed:       " ++ toString result.removed]

/-- Checks an artifact. -/
def runValidate (input : String) : Task String := do
  let rules ← readArtifact input inputArtifactHint
  let summary ← ExceptT.mk (pure ((Artifact.validate rules).mapError .invalidArtifact))
  return report <|
    ["Artifact '" ++ input ++ "' is valid",
     "  Rules:    " ++ toString summary.rules,
     "  Max id:   " ++ toString summary.maxId]
    ++ if 0 < summary.rules then
      ["  Priority: " ++ toString summary.minPriority ++ "..=" ++ toString summary.maxPriority]
    else []

/-- The settings of the overrides with the ids of an artifact's rules kept free. -/
def reserveFor (config : Override.Config) : Option String → Task Override.Config
  | none => return config
  | some path => do
    let rules ← readArtifact path artifactHint
    return { config with maxStaticRuleId := max config.maxStaticRuleId (Artifact.maxId rules) }

/-- Carries out a request on the overrides in a state file. -/
def runOverrides (state : String) (artifact settings : Option String)
    (request : Override.Request) : Task Override.Response := do
  let config ← reserveFor (← loadSettings settings).overrides artifact
  ExceptT.mk do
    return (← Override.Session.once state config request).mapError .overrides

/-! ## Results -/

/-- What a command leaves behind: an exit code, text for the reader, and an error. -/
structure Result where
  code : Nat
  output : String
  error : Option String
deriving DecidableEq, Repr

namespace Result

/-- The result of a task that reports. -/
def ofTask (task : Task String) : Machine.Run Result := do
  match ← task.run with
  | .ok output => return ⟨0, output, none⟩
  | .error e => return ⟨1, "", some ("Error: " ++ e.message)⟩

/-- The result of a request: its response, and the error again if the response is one. -/
def ofResponse (task : Task Override.Response) : Machine.Run Result := do
  match ← task.run with
  | .error e => return ⟨1, "", some ("Error: " ++ e.message)⟩
  | .ok response =>
    let output := Json.pretty response.written ++ "\n"
    match response with
    | .error message _ => return ⟨1, output, some ("Error: " ++ message)⟩
    | _ => return ⟨0, output, none⟩

end Result

/-- Carries out a command. -/
def Command.run : Command → Machine.Run Result
  | .compile input output flags settings verbose =>
    Result.ofTask (runCompile input output flags settings verbose)
  | .dedupe input output => Result.ofTask (runDedupe input output)
  | .validate input => Result.ofTask (runValidate input)
  | .overrides state artifact settings request =>
    Result.ofResponse (runOverrides state artifact settings request)

/-! ## Help -/

/-- The version of the commands. -/
def version : String := "0.3.0"

/-- What the program called `program` can be asked for. -/
def helpText (program : String) : String :=
  report
    ["Compiles filter lists into block rules and keeps the domains exempted from them.",
     "",
     "Usage: " ++ program ++ " -i <path> -o <path> [compile options]",
     "       " ++ program ++ " compile -i <path> -o <path> [compile options]",
     "       " ++ program ++ " dedupe -i <path> -o <path>",
     "       " ++ program ++ " validate -i <path>",
     "       " ++ program ++ " overrides -s <path> [--artifact <path>] <action>",
     "",
     "Compile options:",
     "      --start-id <id>             id of the first rule",
     "      --priority <priority>       priority of every rule",
     "      --max-domain-length <count> longest domain, in characters",
     "      --dedupe                    one rule for repeated patterns",
     "",
     "Actions:",
     "  exempt <domain>, block <domain>, check <domain>, list, status, enable, disable",
     "",
     "Options:",
     "  -c, --config <path>  settings file",
     "  -v, --verbose        more output",
     "  -h, --help           this text",
     "  -V, --version        the version"]

/-- Carries out what words ask for, for a program called `program`. Help and the version count as
success, words that do not fit as failure. -/
def runWords (program : String) (words : List String) : Machine.Run Result :=
  match Command.parse words with
  | .ok command => command.run
  | .error .help => return ⟨0, helpText program, none⟩
  | .error .version => return ⟨0, program ++ " " ++ version ++ "\n", none⟩
  | .error (.misuse e) => return ⟨1, "", some ("error: " ++ e.message)⟩

end Blocklist.CommandLine
