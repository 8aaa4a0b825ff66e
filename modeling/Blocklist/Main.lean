import Blocklist.CommandLine.Run
import Std.Time.DateTime.Timestamp

set_option autoImplicit false

/-! # The program

Carries out the calls of a command on the machine at hand. Everything else is decided before a call
is made. -/

namespace Blocklist

open Machine

/-- The open handles of the locks that are held, by their paths. -/
abbrev Held := List (String × IO.FS.Handle)

/-- An action on the machine that may take and give back locks. -/
abbrev OnMachine := StateT Held IO

/-- A failure of the machine as an answer. -/
def fileError : IO.Error → FileError
  | e@(.noFileOrDirectory ..) => ⟨true, toString e⟩
  | e => ⟨false, toString e⟩

/-- The outcome of an action on files. -/
def attempted {α : Type} (action : IO α) : IO (Except FileError α) := do
  return (← action.toBaseIO).mapError fileError

/-- Takes the lock that a file stands for, and waits until it is free. -/
def takeLock (path : String) : IO IO.FS.Handle := do
  let handle ← IO.FS.Handle.mk path .append
  handle.lock
  return handle

/-- Answers a call. -/
def answer : (c : Call) → OnMachine c.Answer
  | .read path => attempted (IO.FS.readBinFile path)
  | .write path content => attempted (IO.FS.writeBinFile path content)
  | .makeDirectory path => attempted (IO.FS.createDirAll path)
  | .rename source target => attempted (IO.FS.rename source target)
  | .lock path => do
    match ← attempted (takeLock path) with
    | .ok handle => do
      modify ((path, handle) :: ·)
      return .ok ()
    | .error e => return .error e
  | .unlock path => do
    if let some handle := (← get).lookup path then
      handle.unlock
    modify (·.filter (·.1 != path))
  | .clock => do
    let now ← Std.Time.Timestamp.now
    return UInt64.ofNat now.toMillisecondsSinceUnixEpoch.val.toNat
  | .log record => do IO.eprintln record.render

/-- Runs a program on the machine. -/
def runOnMachine {α : Type} (p : Run α) : IO (Option α) := do
  let (result, _) ← (p.interpret (I := interface) fun c => do return some (← answer c)).run []
  return result

end Blocklist

/-- Carries out what the words on the command line ask for. -/
def main (words : List String) : IO UInt32 := do
  match ← Blocklist.runOnMachine (Blocklist.CommandLine.runWords "blocklist" words) with
  | none => return 1
  | some result =>
    IO.print result.output
    if let some error := result.error then
      IO.eprintln error
    return UInt32.ofNat result.code
