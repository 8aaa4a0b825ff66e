set_option autoImplicit false

/-! # Paths

A path is a text of names separated by slashes. Empty names and single dots say nothing, except
for a dot in front. -/

namespace Blocklist.Machine.Path

/-- The path, last character first, without slashes and single dots at its end. -/
def trimReversed : List Char → List Char
  | '/' :: rest => trimReversed rest
  | '.' :: '/' :: rest => trimReversed ('/' :: rest)
  | path => path

/-- The path of the directory that holds what a path names. It is empty for a bare name, and the
root has none. -/
def parent? (path : String) : Option String :=
  let isRooted := path.toList.head? == some '/'
  match trimReversed path.toList.reverse with
  | [] => none
  | named =>
    match trimReversed (named.dropWhile (· != '/')) with
    | [] => some (if isRooted then "/" else "")
    | above => some (String.ofList above.reverse)

/-- The path of the directory to be made before a file can stand at a path; none where the
current directory serves. -/
def directoryOf? (path : String) : Option String :=
  (parent? path).filter (!·.isEmpty)

/-- The names along a path. -/
def names (path : String) : List String :=
  ((path.toList.splitOn '/').map String.ofList).filter fun name => name != "" && name != "."

end Blocklist.Machine.Path
