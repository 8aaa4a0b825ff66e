import Blocklist.FilterList.Line
import Blocklist.FilterList.Options
import Blocklist.Log
import Blocklist.Rule.Basic
import Blocklist.Text.Lines
import Blocklist.Text.Trim
import Blocklist.Text.Utf8
import Std.Data.HashSet

set_option autoImplicit false

/-! # Compiling a filter list

Every pattern of a list becomes a block rule. The rules stand in the order of their lines, with
ids that count up from the first one. The lines are taken one by one; those that are no patterns
are counted and passed over. Only the options and the end of the id space can make a compilation
fail. -/

namespace Blocklist.FilterList

/-! ## Compilations -/

/-- Why there is no compilation. -/
inductive CompileError where
  | invalidInput (fault : Text.Utf8Fault)
  | invalidOptions
  /-- The ids ran out after `assigned` rules. -/
  | idSpaceExhausted (startId : UInt32) (assigned : Nat)
deriving DecidableEq, Repr

/-- The wording of an error. -/
def CompileError.message : CompileError → String
  | invalidInput fault => "Invalid input: filter list is not UTF-8 text (" ++ fault.message ++ ")"
  | invalidOptions => "Invalid compile options: start_id must be at least 1"
  | idSpaceExhausted startId assigned =>
    "Rule id space exhausted after " ++ toString assigned ++ " rules starting at "
      ++ toString startId

/-- How many lines became what. -/
structure Stats where
  totalLines : Nat
  processedRules : Nat
  skippedLines : Nat
  /-- The rejected lines whose fault is structural. -/
  errors : Nat
  ignoredLines : Nat
  rejectedLines : Nat
  duplicateLines : Nat
deriving DecidableEq, Repr

namespace Stats

/-- Before the first line. -/
def zero : Stats := ⟨0, 0, 0, 0, 0, 0, 0⟩

/-- One more line is read. -/
def addLine (stats : Stats) : Stats :=
  { stats with totalLines := stats.totalLines + 1 }

/-- The line is a comment, a header or empty. -/
def addIgnored (stats : Stats) : Stats :=
  { stats with
    skippedLines := stats.skippedLines + 1
    ignoredLines := stats.ignoredLines + 1 }

/-- The line is refused. -/
def addRejected (stats : Stats) (reason : RejectReason) : Stats :=
  { stats with
    skippedLines := stats.skippedLines + 1
    rejectedLines := stats.rejectedLines + 1
    errors := if reason.isStructural then stats.errors + 1 else stats.errors }

/-- The line is a pattern that gave a rule before. -/
def addDuplicate (stats : Stats) : Stats :=
  { stats with
    skippedLines := stats.skippedLines + 1
    duplicateLines := stats.duplicateLines + 1 }

/-- The line gives a rule. -/
def addRule (stats : Stats) : Stats :=
  { stats with processedRules := stats.processedRules + 1 }

/-- The summary of a compilation. -/
def record (stats : Stats) : LogRecord :=
  ⟨.info, "Compiled " ++ toString stats.processedRules ++ " rules from "
    ++ toString stats.totalLines ++ " lines (" ++ toString stats.skippedLines ++ " skipped, "
    ++ toString stats.errors ++ " errors)"⟩

end Stats

/-- A line that was refused. -/
structure Rejection where
  /-- The number of the line, from 1 on. -/
  line : Nat
  reason : RejectReason
deriving DecidableEq, Repr

/-- What a rejection leaves in the log. -/
def Rejection.record (r : Rejection) : LogRecord :=
  ⟨.debug, "Line " ++ toString r.line ++ ": rejected (" ++ r.reason.message ++ ")"⟩

/-- What a repeated pattern leaves in the log. -/
def duplicateRecord (line : Nat) : LogRecord :=
  ⟨.debug, "Line " ++ toString line ++ ": duplicate of an earlier pattern"⟩

/-- The rules of a list, and what became of its other lines. -/
structure Compilation where
  rules : List Rule
  stats : Stats
  rejections : List Rejection
deriving DecidableEq, Repr

/-! ## Lines -/

/-- The blanks that may surround a pattern. -/
def isPadding (c : Char) : Bool :=
  c == ' ' || c == '\t' || c == '\r'

/-- The id after an id; there is none after the largest one. -/
def idAfter? (id : UInt32) : Option UInt32 :=
  if id.toNat + 1 < UInt32.size then some (id + 1) else none

/-- How far a compilation has come. -/
structure Progress where
  rules : Array Rule
  stats : Stats
  rejections : Array Rejection
  /-- The patterns to compare with, if repeats are passed over. -/
  seen : Std.HashSet String
  /-- The id of the next rule, as long as there is one. -/
  nextId : Option UInt32
  log : Array LogRecord

namespace Progress

/-- Before the first line. -/
def start (options : Options) : Progress where
  rules := #[]
  stats := .zero
  rejections := #[]
  seen := ∅
  nextId := some options.startId
  log := #[]

/-- Takes the line with the given index. It fails where a pattern is to get a rule and there is no
id for it. -/
def take (options : Options) (index : Nat) (line : List Char) (progress : Progress) :
    Except CompileError Unit × Progress :=
  let progress := { progress with stats := progress.stats.addLine }
  let line := Text.trim isPadding line
  match classify options.maxDomainLength.toNat line with
  | .ignorable => (.ok (), { progress with stats := progress.stats.addIgnored })
  | .rejected reason =>
    let rejection : Rejection := ⟨index + 1, reason⟩
    (.ok (), { progress with
      stats := progress.stats.addRejected reason
      rejections := progress.rejections.push rejection
      log := progress.log.push rejection.record })
  | .pattern _ =>
    let pattern := String.ofList line
    if options.dedupe && progress.seen.contains pattern then
      (.ok (), { progress with
        stats := progress.stats.addDuplicate
        log := progress.log.push (duplicateRecord (index + 1)) })
    else
      let seen := if options.dedupe then progress.seen.insert pattern else progress.seen
      match progress.nextId with
      | none =>
        (.error (.idSpaceExhausted options.startId progress.rules.size), { progress with seen })
      | some id =>
        (.ok (), { progress with
          seen
          nextId := idAfter? id
          rules := progress.rules.push (.block id options.priority pattern)
          stats := progress.stats.addRule })

/-- Takes lines, the first of them with the given index, up to the one that fails if one does. -/
def takeAll (options : Options) (index : Nat) :
    List (List Char) → Progress → Except CompileError Unit × Progress
  | [], progress => (.ok (), progress)
  | line :: rest, progress =>
    match progress.take options index line with
    | (.ok (), progress) => progress.takeAll options (index + 1) rest
    | (.error e, progress) => (.error e, progress)

end Progress

/-! ## Texts -/

/-- How the compilation of a text ends, and how far it has come then. -/
def compileLines (options : Options) (text : String) : Except CompileError Unit × Progress :=
  if options.startId = 0 then (.error .invalidOptions, .start options)
  else (Progress.start options).takeAll options 0 (Text.lines text.toList)

/-- The compilation of a text. -/
def compile (options : Options) (text : String) : Except CompileError Compilation :=
  let (result, progress) := compileLines options text
  result.map fun () =>
    { rules := progress.rules.toList
      stats := progress.stats
      rejections := progress.rejections.toList }

/-- The compilation of bytes, which must be text. -/
def compileBytes (options : Options) (bytes : ByteArray) : Except CompileError Compilation :=
  match Text.ofUtf8 bytes with
  | .ok text => compile options text
  | .error fault => .error (.invalidInput fault)

/-! ## Log -/

/-- The log of a compilation: a record for every line refused or repeated, and a summary unless it
fails. -/
def compileLog (options : Options) (text : String) : List LogRecord :=
  let (result, progress) := compileLines options text
  match result with
  | .ok () => (progress.log.push progress.stats.record).toList
  | .error _ => progress.log.toList

/-- The log of a compilation of bytes. -/
def compileBytesLog (options : Options) (bytes : ByteArray) : List LogRecord :=
  match Text.ofUtf8 bytes with
  | .ok text => compileLog options text
  | .error _ => []

end Blocklist.FilterList
