import Blocklist.Json.Reader
import Blocklist.Json.Writer
import Blocklist.Machine.Call
import Blocklist.Machine.Path
import Blocklist.Store.Memory

set_option autoImplicit false

/-! # Stores in a file

The state as a document in a file. A commit holds a lock next to the file from the look at the
revision to the replacement, and the new document is written beside the old one and then moved
over it, so that at every moment the file holds one whole document. A missing file stands for a
store into which nothing was written. -/

namespace Blocklist.FileStore

open Machine

/-- A failed call on a file as an error of the store. -/
def failure (path : String) (e : FileError) : StoreError :=
  .io path e.cause

/-- The document of a snapshot. -/
def document (v : Versioned) : String :=
  Json.pretty v.written

/-- The snapshot that the content of a file spells. -/
def ofContent (path : String) (content : ByteArray) : Except StoreError Versioned :=
  match (Json.parseBytes? content).bind Versioned.read? with
  | some v => .ok v
  | none => .error (.corrupt path "not a snapshot of override state")

/-- The snapshot in a file. -/
def load (path : String) : Run (Except StoreError Versioned) := do
  match ← read path with
  | .ok content => return ofContent path content
  | .error e => return if e.missing then .ok .unwritten else .error (failure path e)

/-- The file that a commit locks. -/
def lockPath (path : String) : String := path ++ ".lock"

/-- The file that a commit writes before it moves it into place. -/
def draftPath (path : String) : String := path ++ ".tmp"

/-- A call on a file, its failure told of that file. -/
def attempt (path : String) (call : Run (Except FileError Unit)) : ExceptT StoreError Run Unit :=
  ExceptT.mk do
    match ← call with
    | .ok () => return .ok ()
    | .error e => return .error (failure path e)

/-- Replaces the state under the lock if `expected` is the current revision. -/
def replace (path : String) (expected : UInt64) (state : PersistedState) :
    ExceptT StoreError Run UInt64 := do
  let current ← ExceptT.mk (load path)
  if current.revision = expected then
    let next : Versioned := ⟨expected + 1, state⟩
    let draft := draftPath path
    attempt draft (write draft (document next).toUTF8)
    attempt path (rename draft path)
    return next.revision
  else
    throw (.conflict expected current.revision)

/-- Replaces the state in a file if `expected` is the current revision; answers the new one. -/
def commit (path : String) (expected : UInt64) (state : PersistedState) :
    Run (Except StoreError UInt64) := ExceptT.run do
  if let some directory := Path.directoryOf? path then
    attempt directory (makeDirectory directory)
  let lockFile := lockPath path
  attempt lockFile (lock lockFile)
  let result ← ExceptT.lift (replace path expected state).run
  ExceptT.lift (unlock lockFile)
  ExceptT.mk (pure result)

end Blocklist.FileStore
