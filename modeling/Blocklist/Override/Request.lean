import Blocklist.Json.Reader
import Blocklist.Json.Writer
import Blocklist.Override.Manager

set_option autoImplicit false

/-! # Requests and responses

The messages by which others use the overrides. A request names its kind under `type`; so does a
response. Every request is answered, one that cannot be read by an error. -/

namespace Blocklist.Override

/-- What can be asked. -/
inductive Request where
  | getStatus
  /-- Blocks a domain again, or exempts it if `blocked` is false. -/
  | setDomainBlocking (domain : String) (blocked : Bool)
  | setGlobalEnabled (enabled : Bool)
  | isDomainExempted (domain : String)
  | listExemptions
deriving DecidableEq, Repr

namespace Request

/-- The levels of nesting that a request may have. -/
def nestingLimit : Nat := 127

/-- The fields of a request, besides its tag. -/
def form (fields : List String) : RecordForm where
  fields := fields
  closed := false
  mayStop := false

/-- The request that a value spells. -/
def read? (v : Parsed) : Option Request := do
  let (tag, rest) ← v.tagged? nestingLimit
  match tag with
  | "getStatus" => if rest.isBare then some getStatus else none
  | "listExemptions" => if rest.isBare then some listExemptions else none
  | "setDomainBlocking" =>
    let field ← (form ["domain", "enabled"]).read? rest
    some (setDomainBlocking (← (field "domain").bind Parsed.asText?)
      (← (field "enabled").bind Parsed.asBool?))
  | "setGlobalEnabled" =>
    let field ← (form ["enabled"]).read? rest
    some (setGlobalEnabled (← (field "enabled").bind Parsed.asBool?))
  | "isDomainExempted" =>
    let field ← (form ["domain"]).read? rest
    some (isDomainExempted (← (field "domain").bind Parsed.asText?))
  | _ => none

end Request

/-- What is answered. -/
inductive Response where
  | status (s : Status)
  | transition (t : Transition)
  | globalEnabled (enabled : Bool)
  | exempted (domain : String) (isExempted : Bool)
  | exemptions (entries : List Exemption)
  | error (message : String) (isRetryable : Bool)
deriving DecidableEq, Repr

/-! ## Written form -/

namespace Status

/-- The status as a record. -/
def written (s : Status) : Written :=
  .record [
    ("enabled", .bool s.enabled),
    ("exemptedDomains", .list (s.exemptedDomains.map .text)),
    ("enabledRulesets", .list (s.enabledRulesets.map .text)),
    ("lastUpdate", s.lastUpdate.elim .null (.number ·.toNat))]

end Status

namespace Transition

/-- The transition as a record. -/
def written (t : Transition) : Written :=
  .record [
    ("domain", .text t.domain),
    ("from", .text t.before.name),
    ("to", .text t.after.name),
    ("ids", t.ids.elim .null IdPair.written)]

end Transition

namespace Exemption

/-- The exemption as a record. Its rules are meant to be installed, so it is always enabled. -/
def written (e : Exemption) : Written :=
  .record [
    ("domain", .text e.domain),
    ("incomingRuleId", .number e.ids.incoming.toNat),
    ("outgoingRuleId", .number e.ids.outgoing.toNat),
    ("enabled", .bool true)]

end Exemption

namespace Response

/-- The response as a record, its tag first. -/
def written (response : Response) : Written :=
  let tagged := fun (tag : String) (members : List (String × Written)) =>
    Value.record ((Parsed.tagName, .text tag) :: members)
  match response with
  | status s => tagged "status" [("status", s.written)]
  | transition t => tagged "transition" [("transition", t.written)]
  | globalEnabled enabled => tagged "globalEnabled" [("enabled", .bool enabled)]
  | exempted domain isExempted =>
    tagged "exempted" [("domain", .text domain), ("exempted", .bool isExempted)]
  | exemptions entries => tagged "exemptions" [("entries", .list (entries.map Exemption.written))]
  | error message isRetryable =>
    tagged "error" [("message", .text message), ("retryable", .bool isRetryable)]

/-- The response to an operation that failed. -/
def ofError (e : OverrideError) : Response :=
  error e.message e.isRetryable

/-- The response to a message that is no request. -/
def unreadable : Response :=
  error "Invalid request: not a known request" false

end Response

/-! ## Dispatch -/

namespace Manager

/-- The response to the outcome of an operation. A failure leaves a warning. -/
def respond {α : Type} (toResponse : α → Response) :
    Except OverrideError α → Run Response
  | .ok a => return toResponse a
  | .error e => do
    warn (.requestFailed e)
    return .ofError e

/-- Carries out a request. A toggle has the configured time. -/
def dispatch (manager : Manager) : Request → Run (Response × Manager)
  | .getStatus => do
    let (result, manager) ← manager.status
    return (← respond .status result, manager)
  | .setDomainBlocking domain blocked => do
    let (result, manager) ←
      manager.setDomainBlockingWithin domain blocked manager.config.toggleTimeout
    return (← respond .transition result, manager)
  | .setGlobalEnabled enabled => do
    let (result, manager) ← manager.setGlobalEnabled enabled
    return (← respond (fun () => .globalEnabled enabled) result, manager)
  | .isDomainExempted domain => do
    let result ← (isExempted domain).run
    return (← respond (.exempted domain) result, manager)
  | .listExemptions => do
    let result ← manager.exemptions.run
    return (← respond .exemptions result, manager)

/-- Carries out a request given as a document; answers with a compact document. -/
def dispatchJson (manager : Manager) (text : String) : Run (String × Manager) := do
  match (Json.parse? text).bind Request.read? with
  | some request =>
    let (response, manager) ← manager.dispatch request
    return (Json.compact response.written, manager)
  | none => return (Json.compact Response.unreadable.written, manager)

end Manager

end Blocklist.Override
