/-
Module: HostControl.Control.Plane
Purpose: The control plane. Every operation passes admission for its tiers, then, if it changes
  something, the check of its credential; only then it is carried out, and it is recorded whatever
  becomes of it.
Main exports: Plane, Surroundings, Effect, Session, Session.run, Session.maintain, Session.invoke
-/
import HostControl.Control.Operation
import HostControl.Control.Response
import HostControl.Invocation.Invoker

namespace HostControl.Control

/-- The components behind the control surface, and the credential that guards what changes them. -/
structure Plane where
  apiKey : String
  admission : Admission.Controller
  registry : Access.Registry
  workload : Option Workload.Controller
  monitor : Health.Monitor
  invoker : Invocation.Invoker
deriving Repr

/-- Who asks for an operation, and with what credential. -/
structure Caller where
  context : Context
  credential : Option String := none
deriving Repr

/-- How all that lies outside answers for a while: the cache, the primary datastore, the container
runtime, and writes of the proxy file. -/
structure Surroundings where
  cache : Cache.Answers
  primary : Answer (Except Health.ProbeError Health.Details)
  runtime : Workload.Runtime
  fault : Option Access.WriteFault := none

/-- What happens while operations are carried out. -/
inductive Effect where
  /-- A tier was asked to admit an operation. -/
  | charge (decision : Admission.Decision)
  /-- A command went to the cache. -/
  | command (command : Cache.Command)
  /-- A call went to the container runtime. -/
  | call (call : Workload.RuntimeCall)
  /-- The proxy file was to be written. -/
  | draft (text : String)
  /-- An event was recorded. -/
  | audit (record : Audit.Record)
deriving Repr

/-- The control plane at a time, and what has happened so far, in order. -/
structure Session where
  plane : Plane
  clock : Clock
  journal : List Effect := []
deriving Repr

namespace Session

def note (effects : List Effect) (s : Session) : Session := { s with journal := s.journal ++ effects }

/-- Records events at the present time. -/
def record (events : List Audit.Event) (s : Session) : Session :=
  s.note (events.map fun e => .audit ⟨s.clock.now, e⟩)

def forward (d : Span) (s : Session) : Session := { s with clock := s.clock.forward d }

/-! ### The gate -/

/-- Asks one tier to admit an operation. -/
def chargeTier (ctx : Context) (tier : Admission.Tier) (around : Surroundings) (s : Session) :
    Except Admission.ArithmeticFault (Admission.Decision × Session) := do
  let (ruling, admission) ← s.plane.admission.check ctx tier s.clock around.cache
  let s := { s with plane := { s.plane with admission } }
  let s := (s.note (ruling.commands.map .command)).forward ruling.took
  return (ruling.decision, (s.note [.charge ruling.decision]).record ruling.events)

/-- Asks the tiers in order, up to the first that refuses. Gives its decision if there is one. -/
def charge (ctx : Context) (around : Surroundings) :
    List Admission.Tier → Session →
      Except Admission.ArithmeticFault (Option Admission.Decision × Session)
  | [], s => .ok (none, s)
  | tier :: rest, s =>
    match s.chargeTier ctx tier around with
    | .error fault => .error fault
    | .ok (decision, s) => if decision.allowed then charge ctx around rest s else .ok (some decision, s)

/-- Whether a credential is the one that guards the components. Without one nobody is let through. -/
def authorized (credential : Option String) (p : Plane) : Bool :=
  match credential with
  | some presented => !p.apiKey.isEmpty && presented == p.apiKey
  | none => false

/-- Why a caller is not authorized. -/
def credentialFault (caller : Caller) : String :=
  if caller.credential.isSome then "invalid credential" else "missing credential"

/-! ### Carrying out -/

/-- The result of an operation of the container controller, if there is one. -/
def onWorkload {α : Type} (wrap : α → Payload) (body : Workload.Controller → Workload.Run α)
    (s : Session) : Except Error Payload × Session :=
  match s.plane.workload with
  | none => (.error (.notConfigured "container runtime"), s)
  | some controller =>
    let r := body controller
    let s := ((s.note (r.calls.map .call)).forward r.took).record r.events
    (match r.result with
      | .ok value => .ok (wrap value)
      | .error e => .error (.workload e), s)

/-- The result of a change of the access lists. -/
def onRegistry {α : Type} (wrap : α → Payload) (change : Access.Registry → Access.Change α)
    (s : Session) : Except Error Payload × Session :=
  let c := change s.plane.registry
  let s := { s with plane := { s.plane with registry := c.registry } }
  (match c.result with
    | .ok value => .ok (wrap value)
    | .error e => .error (.access e), (s.note (c.drafts.map .draft)).record c.events)

/-- Carries an operation out. -/
def perform (caller : Caller) (op : Operation) (around : Surroundings) (s : Session) :
    Except Error Payload × Session :=
  let ctx := caller.context
  let rt := around.runtime
  let now := s.clock.now
  let elapsed := s.clock.elapsed
  match op with
  | .health =>
    let (took, report) := s.plane.monitor.check ⟨around.primary, around.cache.ping⟩ s.clock
    (.ok (.health report), (s.note (s.plane.monitor.pings.map .command)).forward took)
  | .primaryHealth =>
    let (took, check) := s.plane.monitor.checkPrimary around.primary s.clock.elapsed
    (.ok (.check check), s.forward took)
  | .cacheHealth =>
    let (took, check) := s.plane.monitor.checkCache around.cache.ping s.clock.elapsed
    (.ok (.check check), (s.note (s.plane.monitor.pings.map .command)).forward took)
  | .limiterStats => (.ok (.limiter s.plane.admission.report), s)
  | .cacheStats =>
    (if s.plane.monitor.cached then .ok (.usage around.cache.usage)
      else .error (.notConfigured "shared cache"), s)
  | .circuitStats => (.ok (.circuits s.plane.invoker.circuits.reports), s)
  | .listContainers => s.onWorkload .containers fun c => c.list rt elapsed
  | .platformServices => s.onWorkload .containers fun c => c.platform rt elapsed
  | .describeContainer id => s.onWorkload .container fun c => c.describe id rt elapsed
  | .startContainer id => s.onWorkload (fun _ => .done) fun c => c.start ctx id rt elapsed
  | .stopContainer id grace => s.onWorkload (fun _ => .done) fun c => c.stop ctx id grace rt elapsed
  | .restartContainer id grace => s.onWorkload (fun _ => .done) fun c => c.restart ctx id grace rt elapsed
  | .containerLogs id query => s.onWorkload .logs fun c => c.logs id query rt elapsed
  | .containerStats id => s.onWorkload .stats fun c => c.stats id rt s.clock
  | .images => s.onWorkload .images fun c => c.images rt elapsed
  | .networks => s.onWorkload .networks fun c => c.networks rt elapsed
  | .volumes => s.onWorkload .volumes fun c => c.volumes rt elapsed
  | .systemInfo => s.onWorkload .info fun c => c.info rt elapsed
  | .addEntry list e => s.onRegistry .entry fun r =>
    r.add list e.pattern e.description ctx.actor e.expiresAt now around.fault
  | .removeEntry list pattern => s.onRegistry .entry fun r =>
    r.remove list pattern ctx.actor now around.fault
  | .listEntries list => (.ok (.entries (s.plane.registry.list list)), s)
  | .isAllowed address =>
    (match Address.read? (Text.trim address) with
      | none => .error (.validation (address ++ " is not an IP address"))
      | some a => .ok (.verdict (s.plane.registry.allowsAddress a now)), s)
  | .cleanupExpired => s.onRegistry .count fun r => r.cleanup now around.fault

/-! ### Operations -/

/-- Records a request that began at `began`. -/
def recordRequest (caller : Caller) (op : Operation) (error : Option String) (began : Span)
    (s : Session) : Session :=
  s.record [.request caller.context op.name op.resource error (s.clock.elapsed - began)]

/-- The response to an operation that was carried out. -/
def answer (op : Operation) : Except Error Payload → Response
  | .ok data => .ok op.successMessage data
  | .error e => .failure e.kind e.message

/-- Runs an operation: the gate, the operation itself, and the record of it. -/
def run (caller : Caller) (op : Operation) (around : Surroundings) (s : Session) :
    Except Admission.ArithmeticFault (Response × Session) := do
  let began := s.clock.elapsed
  let (denial, s) ← charge caller.context around op.opClass.tiers s
  match denial with
  | some decision =>
    return (.rateLimited decision, s.recordRequest caller op (some Response.rateLimitText) began)
  | none =>
    if op.opClass = .mutation ∧ !authorized caller.credential s.plane then
      let reason := credentialFault caller
      let s := s.record [.authFailure caller.context reason]
      return (.failure .unauthorized reason, s.recordRequest caller op (some reason) began)
    else
      let (result, s) := s.perform caller op around
      let error := match result with
        | .ok _ => none
        | .error e => some e.message
      return (answer op result, s.recordRequest caller op error began)

/-! ### Beside the pipeline -/

/-- What one round of maintenance came to. -/
structure Upkeep where
  expiredEntries : Nat
  prunedClients : Nat
deriving DecidableEq, Repr

def Upkeep.toJson (u : Upkeep) : Json :=
  .obj [("expired_entries", .nat u.expiredEntries), ("pruned_clients", .nat u.prunedClients)]

/-- Takes out what has expired and the buckets of callers that were idle. A file that cannot be written
does not keep the rest from being done. -/
def maintain (around : Surroundings) (s : Session) : Upkeep × Session :=
  let (swept, s) := s.onRegistry .count fun r => r.cleanup s.clock.now around.fault
  let (pruned, admission) := s.plane.admission.prune s.clock.elapsed
  (⟨match swept with
    | .ok (.count n) => n
    | _ => 0, pruned⟩, { s with plane := { s.plane with admission } })

/-- From now on the program serves. -/
def serve (s : Session) : Session :=
  { s with plane := { s.plane with monitor := s.plane.monitor.serve } }

/-- Whether the program is up; every caller may ask. -/
def live (s : Session) : Bool := s.plane.monitor.live

/-- Whether the program can take requests; every caller may ask. -/
def ready (around : Surroundings) (s : Session) : Bool × Session :=
  let (took, ready) := s.plane.monitor.ready around.primary s.clock.elapsed
  (ready, s.forward took)

/-- Asks the limiter of single callers. -/
def checkClient (ctx : Context) (address : Address) (s : Session) :
    Except Admission.ArithmeticFault (Admission.Decision × Session) := do
  let (ruling, admission) ← s.plane.admission.checkClient ctx address s.clock.elapsed
  return (ruling.decision, { s with plane := { s.plane with admission } }.record ruling.events)

/-- Calls a service outside, and waits for the end of the call. -/
def invoke {α : Type} (call : Invocation.Call α) (token : Invocation.Token) (s : Session) :
    Option (Invocation.Reply α) × Session :=
  let (reply, happenings, invoker) := s.plane.invoker.call call token s.clock.elapsed
  let records := happenings.map fun (time, e) => Effect.audit ⟨s.clock.timeAt time, e⟩
  let s := { s with plane := { s.plane with invoker } }.note records
  (reply, s.forward ((reply.map (·.took)).getD 0))

end Session

end HostControl.Control
