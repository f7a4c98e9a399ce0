/-
Module: HostControl.Health.Monitor
Purpose: Checks of the services that the program depends on, each within a deadline. Only the primary
  datastore decides whether the program is ready; a cache that is not configured is no failure.
Main exports: Details, ProbeError, Health.unreachable, Check, Health.Report, Monitor, Monitor.check, Monitor.ready
-/
import HostControl.Cache.Service
import HostControl.Time.Clock
import HostControl.Time.Rfc3339

namespace HostControl.Health

open Text

/-- What the primary datastore tells of itself. -/
structure Details where
  version : String := ""
  activeConnections : Int := 0
  maxConnections : Int := 0
  size : String := ""
deriving DecidableEq, Repr

/-- How a probe of the primary datastore fails. -/
inductive ProbeError where
  | connect (message : String)
  | query (message : String)
deriving DecidableEq, Repr

def ProbeError.message : ProbeError → String
  | .connect text => "connect failed: " ++ text
  | .query text => "query failed: " ++ text

/-- What a primary datastore answers that cannot be reached, up to where the system's own words begin. -/
def unreachable : Answer (Except ProbeError Details) := .now (.error (.connect ""))

/-- How a service that the program depends on is doing. -/
inductive Condition where
  | healthy
  | unhealthy
  | notConfigured
deriving DecidableEq, Repr

def Condition.label : Condition → String
  | .healthy => "healthy"
  | .unhealthy => "unhealthy"
  | .notConfigured => "not_configured"

/-- The result of one check. -/
structure Check where
  condition : Condition
  responseMillis : Nat := 0
  error : Option String := none
  details : Option Details := none
deriving DecidableEq, Repr

/-- The result of all checks together. -/
structure Report where
  degraded : Bool
  timestamp : Instant
  version : String
  uptimeSeconds : Nat
  primary : Check
  cache : Check
deriving DecidableEq, Repr

def Report.statusLabel (r : Report) : String := if r.degraded then "degraded" else "healthy"

/-! ### As JSON -/

def Details.toJson (d : Details) : Json :=
  .obj [("version", .str d.version), ("active_connections", .int d.activeConnections),
    ("max_connections", .int d.maxConnections), ("size", .str d.size)]

def Check.toJson (c : Check) : Json :=
  .obj ([("status", .str c.condition.label), ("response_time_ms", .nat c.responseMillis)] ++
    Json.optional "error" (c.error.map .str) ++
    Json.optional "details" (c.details.map Details.toJson))

def Report.toJson (r : Report) : Json :=
  .obj [("status", .str r.statusLabel), ("timestamp", .str (Rfc3339.zulu r.timestamp)),
    ("version", .str r.version), ("uptime_secs", .nat r.uptimeSeconds), ("primary", r.primary.toJson),
    ("cache", r.cache.toJson)]

/-! ### Checks -/

/-- What the checks go by, and what the program has told them. -/
structure Monitor where
  deadline : Span
  version : String
  started : Span
  cached : Bool
  serving : Bool := false
deriving Repr

/-- What the services answer for a while. -/
structure Answers where
  primary : Answer (Except ProbeError Details)
  ping : Answer (Except Cache.Error Unit)

namespace Monitor

/-- A failed check. -/
def failure (error : String) (took : Span) : Check :=
  { condition := .unhealthy, responseMillis := took.wordMillis, error := some error }

/-- The text for a check that the deadline cut off. -/
def overdue (what : String) (m : Monitor) : String :=
  what ++ " timed out after " ++ String.ofList (decimal m.deadline.wordMillis) ++ "ms"

/-- Checks the primary datastore at a time of the clock, and tells how long that took. -/
def checkPrimary (answer : Answer (Except ProbeError Details)) (now : Span) (m : Monitor) :
    Span × Check :=
  match answer.within now m.deadline with
  | (took, some (.ok details)) =>
    (took, { condition := .healthy, responseMillis := took.wordMillis, details := some details })
  | (took, some (.error e)) => (took, failure e.message took)
  | (took, none) => (took, failure (m.overdue "check") took)

/-- Checks the cache at a time of the clock, and tells how long that took. -/
def checkCache (answer : Answer (Except Cache.Error Unit)) (now : Span) (m : Monitor) : Span × Check :=
  if m.cached then
    match answer.within now m.deadline with
    | (took, some (.ok ())) => (took, { condition := .healthy, responseMillis := took.wordMillis })
    | (took, some (.error e)) => (took, failure e.message took)
    | (took, none) => (took, failure (m.overdue "ping") took)
  else (0, { condition := .notConfigured })

/-- The commands that a check of the cache sends. -/
def pings (m : Monitor) : List Cache.Command := if m.cached then [.ping] else []

/-- Checks everything at once. -/
def check (answers : Answers) (clock : Clock) (m : Monitor) : Span × Report :=
  let (primaryTook, primary) := m.checkPrimary answers.primary clock.elapsed
  let (cacheTook, cache) := m.checkCache answers.ping clock.elapsed
  let took := max primaryTook cacheTook
  let clock := clock.forward took
  (took,
    { degraded := primary.condition = .unhealthy || cache.condition = .unhealthy
      timestamp := clock.now
      version := m.version
      uptimeSeconds := Span.seconds (clock.elapsed - m.started)
      primary
      cache })

/-- Whether the program can take requests: the primary datastore answers in time. -/
def ready (answer : Answer (Except ProbeError Details)) (now : Span) (m : Monitor) : Span × Bool :=
  let (took, check) := m.checkPrimary answer now
  (took, check.condition = .healthy)

/-- From now on the program serves. -/
def serve (m : Monitor) : Monitor := { m with serving := true }

/-- Whether the program is up and serves. -/
def live (m : Monitor) : Bool := m.serving

end Monitor

end HostControl.Health
