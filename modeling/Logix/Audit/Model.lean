import Logix.Js.Date

/-!
# The security audit log

`SecurityAuditEventLogger`: events chained by `previousHash` and `currentHash`.

* `LogEventCall`: the arguments of `logEvent` and what it reads from the clock and from
  `Math.random`;
* `payloadHash`: the hash of an event, the front of the hexadecimal digits of its payload;
* `logEvent`, `history`, `verifyChainIntegrity`.
-/

namespace Logix.Audit

/-- `ISecurityAuditEvent['action']`. -/
inductive AuditAction where
  | LOGIN_SUCCESS | LOGIN_FAILURE | PASSWORD_RESET | ROLE_ASSIGNMENT | API_KEY_CREATED
  | SESSION_TERMINATED
  deriving DecidableEq, Repr

/-- The text of an action. -/
def AuditAction.text : AuditAction → JsString
  | .LOGIN_SUCCESS => js "LOGIN_SUCCESS"
  | .LOGIN_FAILURE => js "LOGIN_FAILURE"
  | .PASSWORD_RESET => js "PASSWORD_RESET"
  | .ROLE_ASSIGNMENT => js "ROLE_ASSIGNMENT"
  | .API_KEY_CREATED => js "API_KEY_CREATED"
  | .SESSION_TERMINATED => js "SESSION_TERMINATED"

/-- `ISecurityAuditEvent`. -/
structure ISecurityAuditEvent where
  eventId : JsString
  tenantId : JsString
  actorUserId : JsString
  actorIp : JsString
  action : AuditAction
  targetResource : JsString
  timestamp : JsDate
  previousHash : JsString
  currentHash : JsString
  deriving DecidableEq, Repr

/-- One call of `logEvent`: its arguments, `Date.now()`, `Math.random().toString(36)` and
`new Date()`. -/
structure LogEventCall where
  tenantId : JsString
  actorUserId : JsString
  actorIp : JsString
  action : AuditAction
  targetResource : JsString
  dateNow : ℕ
  random : JsString
  now : JsDate
  deriving DecidableEq, Repr

/-- `SecurityAuditEventLogger`. -/
structure SecurityAuditEventLogger where
  lastHash : JsString
  events : List ISecurityAuditEvent
  deriving DecidableEq, Repr

/-- The hash before the first event: 64 zeros. -/
def genesis : JsString := List.replicate 64 (digitUnit 0)

/-- The identifier of a call's event. -/
def LogEventCall.eventId (a : LogEventCall) : JsString :=
  js "audit_" ++ toBase 36 a.dateNow ++ substring a.random 2 6

/-- The hashed payload without the previous hash in front. -/
def LogEventCall.body (a : LogEventCall) : JsString :=
  js "|" ++ a.eventId ++ js "|" ++ a.tenantId ++ js "|" ++ a.actorUserId ++ js "|" ++
    a.action.text ++ js "|" ++ toISOString a.now

/-- `Buffer.from(payload).toString('hex').padEnd(64, 'a').substring(0, 64)`. -/
def payloadHash (payload : JsString) : JsString :=
  substring (padEnd (toHex (bufferFrom payload)) 64 (digitUnit 10)) 0 64

namespace SecurityAuditEventLogger

/-- `new SecurityAuditEventLogger()`. -/
def new : SecurityAuditEventLogger := ⟨genesis, []⟩

/-- The event that `logEvent` pushes and returns. -/
def newEvent (l : SecurityAuditEventLogger) (a : LogEventCall) : ISecurityAuditEvent where
  eventId := a.eventId
  tenantId := a.tenantId
  actorUserId := a.actorUserId
  actorIp := a.actorIp
  action := a.action
  targetResource := a.targetResource
  timestamp := a.now
  previousHash := l.lastHash
  currentHash := payloadHash (l.lastHash ++ a.body)

/-- `logEvent`. -/
def logEvent (l : SecurityAuditEventLogger) (a : LogEventCall) : SecurityAuditEventLogger :=
  ⟨(l.newEvent a).currentHash, l.events ++ [l.newEvent a]⟩

/-- The log after a sequence of calls. -/
def history (calls : List LogEventCall) : SecurityAuditEventLogger := calls.foldl logEvent new

/-- The loop of `verifyChainIntegrity`, from the hash `prev`. -/
def verifyLoop (prev : JsString) : List ISecurityAuditEvent → Bool
  | [] => true
  | e :: es => if e.previousHash ≠ prev then false else verifyLoop e.currentHash es

/-- `verifyChainIntegrity`. -/
def verifyChainIntegrity (l : SecurityAuditEventLogger) : Bool := verifyLoop genesis l.events

end SecurityAuditEventLogger

end Logix.Audit
