/-
Module: HostControl.Audit.Event
Purpose: The events of the audit trail and who caused them.
Main exports: Context, Audit.Event, Audit.Record
-/
import HostControl.Json.Basic
import HostControl.Net.Address
import HostControl.Time.Rfc3339

namespace HostControl

/-- Who asks, and from where. -/
structure Context where
  actor : String
  address : Option Address := none
  userAgent : Option String := none
  correlationId : String
deriving Repr, Inhabited

namespace Audit

/-- The network prefix recorded for a caller whose address is not known. -/
def unknownAddress : String := "unknown"

/-- Something that was done, or tried, and how it went. The details are in the order of their names.
-/
structure Event where
  action : String
  actor : String
  resource : String
  success : Bool := true
  error : Option String := none
  details : List (String × Json) := []
  maskedAddress : String := unknownAddress
  userAgent : Option String := none
  durationMillis : Nat := 0
  correlationId : Option String := none
deriving Repr, Inhabited

namespace Event

/-- Adds what is known of the caller. Of the address only its prefix is kept. -/
def withContext (ctx : Context) (e : Event) : Event :=
  { e with
    maskedAddress := (ctx.address.map Address.masked).getD unknownAddress
    userAgent := ctx.userAgent
    correlationId := some ctx.correlationId }

/-- Marks the event as failed. -/
def failed (error : String) (e : Event) : Event := { e with success := false, error := some error }

/-- Marks the event as failed if there is an error. -/
def outcome (error : Option String) (e : Event) : Event :=
  match error with
  | some text => e.failed text
  | none => e

/-- Adds a detail; one of the same name gives way. -/
def detail (name : String) (value : Json) (e : Event) : Event :=
  { e with details := Json.insertField name value e.details }

/-- Notes how long it took, in whole milliseconds of 64 bits. -/
def took (elapsed : Span) (e : Event) : Event := { e with durationMillis := elapsed.wordMillis }

/-! ### The kinds of events -/

/-- An operation asked for at the control surface. -/
def request (ctx : Context) (operation resource : String) (error : Option String) (elapsed : Span) :
    Event :=
  ({ action := "http_request", actor := ctx.actor, resource } : Event)
    |>.withContext ctx |>.outcome error |>.detail "operation" (.str operation) |>.took elapsed

/-- A call to a service outside. -/
def integration (service operation : String) (error : Option String) (elapsed : Span) : Event :=
  ({ action := s!"integration_{service}_{operation}", actor := "system", resource := service } : Event)
    |>.outcome error |>.took elapsed

/-- The renewal of a credential for a service. -/
def tokenRefresh (service : String) (error : Option String) : Event :=
  ({ action := "token_refresh", actor := "system", resource := service } : Event).outcome error

/-- A circuit breaker's change of state. -/
def transition (service source target : String) : Event :=
  ({ action := "circuit_breaker_state_change", actor := "system", resource := service } : Event)
    |>.detail "from" (.str source) |>.detail "to" (.str target)

/-- A request that a limiter refused. -/
def rateLimit (ctx : Context) (scope : String) (limit : Nat) : Event :=
  ({ action := "rate_limit_exceeded", actor := ctx.actor, resource := scope } : Event)
    |>.withContext ctx |>.failed "rate limit exceeded" |>.detail "limit" (.nat limit)

/-- A credential that was not accepted. -/
def authFailure (ctx : Context) (reason : String) : Event :=
  ({ action := "auth_failure", actor := ctx.actor, resource := "control_surface" } : Event)
    |>.withContext ctx |>.failed reason

end Event

/-- An event as it is kept: with the time of its recording. -/
structure Record where
  timestamp : Instant
  event : Event
deriving Repr, Inhabited

namespace Record

/-- The fields of a record, in the order in which they are written. What is not known is left out. -/
def toJson (r : Record) : Json :=
  let e := r.event
  .obj (
    [("timestamp", .str (Rfc3339.zulu r.timestamp)), ("action", .str e.action),
      ("actor", .str e.actor), ("resource", .str e.resource), ("success", .bool e.success)] ++
    Json.optional "error" (e.error.map .str) ++
    (if e.details.isEmpty then [] else [("details", .obj e.details)]) ++
    [("masked_ip", .str e.maskedAddress)] ++
    Json.optional "user_agent" (e.userAgent.map .str) ++
    [("duration_ms", .nat e.durationMillis)] ++
    Json.optional "correlation_id" (e.correlationId.map .str))

/-- The line that holds a record, without its end. -/
def line (r : Record) : String := r.toJson.compact

end Record

end Audit

end HostControl
