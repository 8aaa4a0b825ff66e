import Blocklist.Machine.Call
import Blocklist.Machine.Path
import Std.Data.ExtTreeMap

set_option autoImplicit false

/-! # Directories as values

A directory with everything below it, held as a value, and the meaning of the machine's calls on
it. Paths lead down from the directory; two dots lead up again. -/

namespace Blocklist.Machine

/-- What stands at a path. -/
inductive Node where
  | file (content : ByteArray)
  | directory

/-- What stands below a directory, by the names that lead there joined by slashes. -/
structure FileTree where
  nodes : Std.ExtTreeMap String Node

namespace FileTree

/-- An empty directory. -/
def empty : FileTree := ⟨∅⟩

/-- There is no such file. -/
def missing : FileError := ⟨true, "No such file or directory"⟩

/-- A name on the way is no directory. -/
def notDirectory : FileError := ⟨false, "Not a directory"⟩

/-- A directory stands where a file is meant. -/
def isDirectory : FileError := ⟨false, "Is a directory"⟩

/-- A file stands where a directory is meant. -/
def alreadyExists : FileError := ⟨false, "File exists"⟩

/-- The key of a list of names. -/
def key (names : List String) : String :=
  "/".intercalate names

/-- What stands at the end of a list of names; nothing but the directory itself at its root. -/
def node? (tree : FileTree) (names : List String) : Option Node :=
  if names.isEmpty then some .directory else tree.nodes[key names]?

/-- Follows names from a directory, `above` being the names that led there, last first. Every name
but the last must lead to a directory. -/
def walk (tree : FileTree) (above : List String) : List String → Except FileError (List String)
  | [] => .ok above.reverse
  | name :: rest =>
    match tree.node? above.reverse with
    | some .directory =>
      if name == ".." then tree.walk above.tail rest else tree.walk (name :: above) rest
    | some (.file _) => .error notDirectory
    | none => .error missing

/-- The names that a path leads to. -/
def resolve (tree : FileTree) (path : String) : Except FileError (List String) :=
  if path.isEmpty || path.startsWith "/" then .error missing else tree.walk [] (Path.names path)

/-- Whether a path can only mean a directory. -/
def meansDirectory (path : String) : Bool :=
  path.toList.getLast? == some '/'

/-- The content of a file. -/
def read (tree : FileTree) (path : String) : Except FileError ByteArray := do
  match tree.node? (← tree.resolve path) with
  | some (.file content) => if meansDirectory path then .error notDirectory else .ok content
  | some .directory => .error isDirectory
  | none => .error missing

/-- The tree with the content of a file replaced by what `change` makes of it. -/
def modify (tree : FileTree) (path : String) (change : Option ByteArray → ByteArray) :
    Except FileError FileTree := do
  let names ← tree.resolve path
  match tree.node? names with
  | some .directory => .error isDirectory
  | some (.file content) =>
    if meansDirectory path then .error notDirectory
    else .ok ⟨tree.nodes.insert (key names) (.file (change (some content)))⟩
  | none =>
    if meansDirectory path then .error isDirectory
    else .ok ⟨tree.nodes.insert (key names) (.file (change none))⟩

/-- The tree with a file that holds the given content. -/
def write (tree : FileTree) (path : String) (content : ByteArray) : Except FileError FileTree :=
  tree.modify path fun _ => content

/-- The tree with a file at a path, empty if it is new. -/
def touch (tree : FileTree) (path : String) : Except FileError FileTree :=
  tree.modify path (·.getD ByteArray.empty)

/-- Makes the directories that a list of names leads through, `above` being the names that led so
far, last first. -/
def makeAlong (tree : FileTree) (above : List String) : List String → Except FileError FileTree
  | [] => .ok tree
  | name :: rest =>
    if name == ".." then tree.makeAlong above.tail rest
    else
      let names := (name :: above).reverse
      match tree.node? names with
      | some .directory => tree.makeAlong (name :: above) rest
      | some (.file _) => .error (if rest.isEmpty then alreadyExists else notDirectory)
      | none => makeAlong ⟨tree.nodes.insert (key names) .directory⟩ (name :: above) rest

/-- The tree with a directory at a path, and with those above it. -/
def makeDirectory (tree : FileTree) (path : String) : Except FileError FileTree :=
  if path.startsWith "/" then .error missing else tree.makeAlong [] (Path.names path)

/-- The tree with a file moved over another. -/
def rename (tree : FileTree) (source target : String) : Except FileError FileTree := do
  let sourceNames ← tree.resolve source
  let targetNames ← tree.resolve target
  match tree.node? sourceNames, tree.node? targetNames with
  | none, _ => .error missing
  | some .directory, _ | _, some .directory => .error isDirectory
  | some (.file content), _ =>
    .ok ⟨(tree.nodes.erase (key sourceNames)).insert (key targetNames) (.file content)⟩

end FileTree

/-- A tree and the time, as the surroundings of a run. -/
structure Sandbox where
  tree : FileTree
  time : UInt64

namespace Sandbox

/-- Puts a changed tree in place; a call that fails changes nothing. -/
def changed (sandbox : Sandbox) : Except FileError FileTree → Except FileError Unit × Sandbox
  | .ok tree => (.ok (), { sandbox with tree })
  | .error e => (.error e, sandbox)

/-- Answers a call. Locks are always free, and log records are not kept. -/
def answer (sandbox : Sandbox) : (c : Call) → c.Answer × Sandbox
  | .read path => (sandbox.tree.read path, sandbox)
  | .write path content => sandbox.changed (sandbox.tree.write path content)
  | .makeDirectory path => sandbox.changed (sandbox.tree.makeDirectory path)
  | .rename source target => sandbox.changed (sandbox.tree.rename source target)
  | .lock path => sandbox.changed (sandbox.tree.touch path)
  | .unlock _ => ((), sandbox)
  | .clock => (sandbox.time, sandbox)
  | .log _ => ((), sandbox)

/-- Runs a program. -/
def run {α : Type} (p : Run α) (sandbox : Sandbox) : Option α × Sandbox :=
  (p.interpret (m := StateM Sandbox) fun c sandbox =>
    let (reply, sandbox) := sandbox.answer c
    (some reply, sandbox)) sandbox

end Sandbox

end Blocklist.Machine
