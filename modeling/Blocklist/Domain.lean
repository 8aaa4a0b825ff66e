import Blocklist.Text.CharClass
import Blocklist.Text.LowerCase
import Blocklist.Text.Trim

set_option autoImplicit false

/-! # Domains

People name a domain by the bare host, by an address that holds it, or by host and port. The
canonical name is the host alone, in lower case and without dots at its end. -/

namespace Blocklist.Domain

/-- What follows the first `://`. -/
def afterScheme? : List Char → Option (List Char)
  | [] => none
  | ':' :: '/' :: '/' :: rest => some rest
  | _ :: rest => afterScheme? rest

/-- Whether a character ends the part of an address that names the host. -/
def endsAuthority (c : Char) : Bool :=
  c == '/' || c == '?' || c == '#'

/-- What follows the last at sign; everything if there is none. -/
def dropUserInfo (authority : List Char) : List Char :=
  (authority.reverse.takeWhile (· != '@')).reverse

/-- The text without a colon and one or more digits at its end. -/
def dropPort (host : List Char) : List Char :=
  match host.reverse.dropWhile Char.isDigit with
  | ':' :: name => if host.getLast? = some ':' then host else name.reverse
  | _ => host

/-- Whether a character cannot stand in a domain. -/
def isForbidden (c : Char) : Bool :=
  Text.isBlank c || Text.isControl c || ['*', '^', '|', ':', '@'].contains c

/-- The canonical name of the domain that an input names, if it names one. -/
def normalizeChars? (input : List Char) : Option (List Char) :=
  let trimmed := Text.trim Text.isBlank input
  let authority := ((afterScheme? trimmed).getD trimmed).takeWhile (!endsAuthority ·)
  let host := dropPort (dropUserInfo authority)
  let domain := Text.lower (Text.trimEnd (· == '.') host)
  if domain.isEmpty || domain.any isForbidden then none else some domain

/-- The canonical name of the domain that an input names, if it names one. -/
def normalize? (input : String) : Option String :=
  (normalizeChars? input.toList).map String.ofList

end Blocklist.Domain
