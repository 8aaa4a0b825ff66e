set_option autoImplicit false

/-! # Lines of a filter list

A line is a comment, a pattern or a fault. A pattern is a domain between two bars in front and a
caret behind. The domain stands as it is, in whatever case and script; only its length, wildcards,
paths and the NUL character are looked at. -/

namespace Blocklist.FilterList

/-- Why a line is no pattern. -/
inductive RejectReason where
  /-- At most four characters, which leaves less than two for the domain. -/
  | tooShort
  | missingHostAnchor
  | missingSeparator
  | domainTooLong (length limit : Nat)
  | wildcard
  | path
  | nullCharacter
deriving DecidableEq, Repr

namespace RejectReason

/-- Whether the fault points at damaged input rather than at a pattern of another kind. -/
def isStructural : RejectReason → Bool
  | nullCharacter => true
  | _ => false

/-- The wording of a reason. -/
def message : RejectReason → String
  | tooShort => "line too short"
  | missingHostAnchor => "missing '||' anchor"
  | missingSeparator => "missing '^' separator"
  | domainTooLong length limit =>
    "domain is " ++ toString length ++ " characters, limit is " ++ toString limit
  | wildcard => "wildcards are not supported"
  | path => "paths are not supported"
  | nullCharacter => "NUL character in domain"

end RejectReason

/-- What a line is. -/
inductive LineClass where
  /-- An empty line, a comment or a header. -/
  | ignorable
  | pattern (domain : List Char)
  | rejected (reason : RejectReason)
deriving DecidableEq, Repr

/-- Whether a line is empty or starts like a comment or a header. -/
def isIgnorable : List Char → Bool
  | [] => true
  | c :: _ => c == '!' || c == '[' || c == '#'

/-- The reason to refuse a domain that holds a character, if the character is one. -/
def faultOfChar? : Char → Option RejectReason
  | '*' => some .wildcard
  | '/' => some .path
  | '\x00' => some .nullCharacter
  | _ => none

/-- The domain of a pattern, or the first reason why a line is none. -/
def domainOf (limit : Nat) (line : List Char) : Except RejectReason (List Char) :=
  if line.length ≤ 4 then .error .tooShort
  else
    match line with
    | '|' :: '|' :: rest =>
      if rest.getLast? = some '^' then
        let domain := rest.dropLast
        if limit < domain.length then .error (.domainTooLong domain.length limit)
        else
          match domain.findSome? faultOfChar? with
          | some reason => .error reason
          | none => .ok domain
      else .error .missingSeparator
    | _ => .error .missingHostAnchor

/-- What a line without blanks at its ends is, with domains of at most `limit` characters. -/
def classify (limit : Nat) (line : List Char) : LineClass :=
  if isIgnorable line then .ignorable
  else
    match domainOf limit line with
    | .ok domain => .pattern domain
    | .error reason => .rejected reason

end Blocklist.FilterList
