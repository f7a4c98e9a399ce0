/-
Module: HostControl.Control.Response
Purpose: What callers of the control surface get back: a payload, or the kind of a failure and its text.
Main exports: FailureKind, Control.Error, Payload, Response, Response.toJson
-/
import HostControl.Access.Registry
import HostControl.Admission.Controller
import HostControl.Health.Monitor
import HostControl.Invocation.Circuits
import HostControl.Invocation.Failure
import HostControl.Workload.Controller

namespace HostControl.Control

/-- The kinds of failures that callers tell apart. -/
inductive FailureKind where
  | validation
  | notFound
  | circuitOpen
  | synchronization
  | transientDependency
  | unauthorized
  | rateLimited
  | notConfigured
deriving DecidableEq, Repr

def FailureKind.label : FailureKind → String
  | .validation => "validation"
  | .notFound => "not_found"
  | .circuitOpen => "circuit_open"
  | .synchronization => "synchronization"
  | .transientDependency => "transient_dependency"
  | .unauthorized => "unauthorized"
  | .rateLimited => "rate_limited"
  | .notConfigured => "not_configured"

/-- Why an operation that was let through failed. -/
inductive Error where
  | access (e : Access.Error)
  | workload (e : Workload.Error)
  | call (e : Invocation.CallError)
  | validation (text : String)
  | notConfigured (component : String)
deriving DecidableEq, Repr

namespace Error

def kind : Error → FailureKind
  | .access (.validation _) | .workload (.validation _) | .validation _ => .validation
  | .access (.notFound ..) | .workload (.notFound _) => .notFound
  | .access (.sync _) => .synchronization
  | .call (.circuitOpen _) => .circuitOpen
  | .call _ | .workload _ => .transientDependency
  | .notConfigured _ => .notConfigured

def message : Error → String
  | .access e => e.message
  | .workload e => e.message
  | .call e => e.message
  | .validation text => text
  | .notConfigured component => component ++ " is not configured"

end Error

/-- What a successful operation gives. -/
inductive Payload where
  | done
  | health (report : Health.Report)
  | check (check : Health.Check)
  | limiter (report : Admission.LimiterReport)
  | usage (usage : Cache.Usage)
  | circuits (reports : List Invocation.CircuitReport)
  | container (container : Workload.Container)
  | containers (containers : List Workload.Container)
  | logs (text : String)
  | stats (stats : Workload.ContainerStats)
  | images (images : List Workload.Image)
  | networks (networks : List Workload.RuntimeNetwork)
  | volumes (volumes : List Workload.Volume)
  | info (info : Workload.RuntimeInfo)
  | entry (entry : Access.Entry)
  | entries (entries : List Access.Entry)
  | verdict (allowed : Bool)
  | count (count : Nat)
deriving Repr

def Payload.toJson : Payload → Json
  | .done => .null
  | .health r => r.toJson
  | .check c => c.toJson
  | .limiter r => r.toJson
  | .usage u => u.toJson
  | .circuits rs => .arr (rs.map Invocation.CircuitReport.toJson)
  | .container c => c.toJson
  | .containers cs => .arr (cs.map Workload.Container.toJson)
  | .logs text => .str text
  | .stats s => s.toJson
  | .images is => .arr (is.map Workload.Image.toJson)
  | .networks ns => .arr (ns.map Workload.RuntimeNetwork.toJson)
  | .volumes vs => .arr (vs.map Workload.Volume.toJson)
  | .info i => i.toJson
  | .entry e => e.toJson
  | .entries es => .arr (es.map Access.Entry.toJson)
  | .verdict allowed => .bool allowed
  | .count n => .nat n

/-- What a caller gets back. -/
structure Response where
  success : Bool
  message : String
  kind : Option FailureKind := none
  rateLimit : Option Admission.Decision := none
  data : Option Payload := none
deriving Repr

namespace Response

def ok (message : String) (data : Payload) : Response := { success := true, message, data := some data }

def failure (kind : FailureKind) (message : String) : Response :=
  { success := false, message, kind := some kind }

/-- The text for a request that a limiter refused. -/
def rateLimitText : String := "rate limit exceeded"

/-- The response to a request that a limiter refused tells the caller about the limit. -/
def rateLimited (decision : Admission.Decision) : Response :=
  { failure .rateLimited rateLimitText with rateLimit := some decision }

/-- The fields of a response; what there is nothing to say about is left out. -/
def toJson (r : Response) : Json :=
  .obj ([("success", .bool r.success), ("message", .str r.message)] ++
    Json.optional "kind" (r.kind.map fun k => .str k.label) ++
    Json.optional "rate_limit" (r.rateLimit.map Admission.Decision.toJson) ++
    Json.optional "data" (r.data.map Payload.toJson))

end Response

end HostControl.Control
