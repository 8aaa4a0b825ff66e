import Blocklist.Log
import Blocklist.Program

set_option autoImplicit false

/-! # Calls on the machine

What a command asks of the machine that it runs on: files, the time, and a place for log
records. -/

namespace Blocklist.Machine

/-- Why a call on a file fails: whether there is no such file, and the machine's own words. -/
structure FileError where
  missing : Bool
  cause : String
deriving DecidableEq, Repr

/-- The calls. -/
inductive Call where
  /-- The content of a file. -/
  | read (path : String)
  /-- Replaces the content of a file, which is made if there is none. -/
  | write (path : String) (content : ByteArray)
  /-- Makes a directory and those above it, as far as they are missing. -/
  | makeDirectory (path : String)
  /-- Moves a file over another. -/
  | rename (source target : String)
  /-- Takes the lock that a file stands for; the file is made if there is none. -/
  | lock (path : String)
  /-- Gives a lock back. -/
  | unlock (path : String)
  /-- Milliseconds since 1970. -/
  | clock
  | log (r : LogRecord)

/-- What answers a call. -/
def Call.Answer : Call → Type
  | read _ => Except FileError ByteArray
  | write _ _ | makeDirectory _ | rename _ _ | lock _ => Except FileError Unit
  | unlock _ | log _ => Unit
  | clock => UInt64

/-- The machine as an interface. -/
def interface : Interface := ⟨Call, Call.Answer⟩

/-- A program that calls on the machine. -/
abbrev Run := Program interface

/-! ## Calls as programs -/

/-- The content of a file. -/
def read (path : String) : Run (Except FileError ByteArray) :=
  Program.ask (I := interface) (.read path)

/-- Replaces the content of a file. -/
def write (path : String) (content : ByteArray) : Run (Except FileError Unit) :=
  Program.ask (I := interface) (.write path content)

/-- Makes a directory and those above it. -/
def makeDirectory (path : String) : Run (Except FileError Unit) :=
  Program.ask (I := interface) (.makeDirectory path)

/-- Moves a file over another. -/
def rename (source target : String) : Run (Except FileError Unit) :=
  Program.ask (I := interface) (.rename source target)

/-- Takes the lock that a file stands for. -/
def lock (path : String) : Run (Except FileError Unit) :=
  Program.ask (I := interface) (.lock path)

/-- Gives a lock back. -/
def unlock (path : String) : Run Unit := Program.ask (I := interface) (.unlock path)

/-- Milliseconds since 1970. -/
def clock : Run UInt64 := Program.ask (I := interface) .clock

/-- Leaves a log record. -/
def log (r : LogRecord) : Run Unit := Program.ask (I := interface) (.log r)

end Blocklist.Machine
