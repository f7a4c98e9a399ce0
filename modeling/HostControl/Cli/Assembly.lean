/-
Module: HostControl.Cli.Assembly
Purpose: The control plane put together from settings on a machine, and operations carried out on it.
  What cannot be reached is left out, but without readable access lists there is no control plane.
Main exports: Assembly, assemble, Assembly.request
-/
import HostControl.Cache.Location
import HostControl.Cli.Plan

namespace HostControl.Cli

open Control (Caller Effect Operation Response Session Surroundings)

/-- The control plane on a machine: the path of its proxy file, the directory of its audit trail if it
keeps one, and how all that lies outside answers. -/
structure Assembly where
  session : Session
  around : Surroundings
  proxyFile : String
  auditDirectory : Option String

/-- What stands at the place of the proxy file. -/
def placeOf : Config.Source → Access.Place
  | .missing => .missing
  | .text contents => .text contents
  | .unreadable => .directory

/-- The cache of the settings, if there is one and it is reached. -/
def connectCache (settings : Config.Cache) : Plan (Option Cache.Answers) := do
  match settings.url with
  | none => return none
  | some url =>
    let answers ← Request.cache url (Span.ofMillis settings.timeoutMillis.toNat)
    if answers.isNone then Request.tell "shared cache unavailable, continuing without it"
    return answers

/-- The variable by which the environment names an engine. -/
def engineVariable : String := "DOCKER_HOST"

/-- The controller of containers, if its engine can be set up, and how the engine answers. -/
def connectEngine (env : Config.Environment) (settings : Config.Docker) :
    Plan (Option Workload.Controller × Workload.Runtime) := do
  let endpoint := Workload.Endpoint.ofHost (env engineVariable) settings.host
  let there ← match endpoint with
    | .address _ => pure true
    | .socket path => Request.present path
  let runtime ← Request.engine endpoint
  match endpoint.fault? (fun _ => there) settings.host with
  | none => return (some (.of settings), runtime)
  | some _ =>
    Request.tell "container runtime unavailable, container operations disabled"
    return (none, runtime)

/-- Puts the control plane together. -/
def assemble (env : Config.Environment) (settings : Config.Settings) (auditDirectory : Option String) :
    Plan (Except Access.Error Assembly) := do
  let cache ← connectCache settings.cache
  let clock ← Request.clock
  let place ← Request.look settings.access.proxyConfigPath
  match Access.Registry.open? settings.access.middleware (placeOf place) clock.now with
  | .error e => return .error e
  | .ok registry =>
    let (workload, runtime) ← connectEngine env settings.docker
    let primary ← Request.primary settings.database
    return .ok
      { session :=
          { clock
            plane :=
              { apiKey := settings.server.apiKey
                admission := .of settings.rateLimit cache.isSome clock.elapsed
                registry
                workload
                monitor :=
                  { deadline := Span.ofSeconds settings.database.checkTimeoutSeconds.toNat
                    version := settings.server.version
                    started := clock.elapsed
                    cached := cache.isSome }
                invoker := .of settings.breaker settings.retry } }
        around := { cache := cache.getD .absent, primary, runtime }
        proxyFile := settings.access.proxyConfigPath
        auditDirectory }

namespace Assembly

/-- The text that was to be written to the proxy file, if there was one. -/
def draft? (s : Session) : Option String :=
  s.journal.findSome? fun
    | .draft text => some text
    | _ => none

/-- The records among what has happened. -/
def records (s : Session) : List Audit.Record :=
  s.journal.filterMap fun
    | .audit record => some record
    | _ => none

/-- Keeps the records of what has happened, and begins anew. -/
def settle (a : Assembly) (s : Session) : Plan Assembly := do
  match a.auditDirectory with
  | some directory => for record in records s do Request.keep directory record
  | none => pure ()
  return { a with session := { s with journal := [] } }

/-- Carries a step out. If the file cannot be written, the step has gone as it goes when the write
fails in this way. -/
def carryOut {α : Type} (step : Surroundings → Session → α × Session) (a : Assembly) :
    Plan (α × Assembly) := do
  let clock ← Request.clock
  let before := { a.session with clock := a.session.clock.forwardTo clock.elapsed }
  let (result, after) := step a.around before
  let fault ← match draft? after with
    | some text => Request.replace a.proxyFile text
    | none => pure none
  let (result, after) := match fault with
    | none => (result, after)
    | some _ => step { a.around with fault } before
  return (result, ← settle a after)

/-- Has an operation carried out for a caller. There is no response when the limiters break down. -/
def request (caller : Caller) (op : Operation) (a : Assembly) :
    Plan (Except Admission.ArithmeticFault Response × Assembly) :=
  a.carryOut fun around s =>
    match s.run caller op around with
    | .ok (response, s) => (.ok response, s)
    | .error e => (.error e, s)

/-- Whether the program can take requests. -/
def ready (a : Assembly) : Plan (Bool × Assembly) :=
  a.carryOut fun around s => s.ready around

/-- Does one round of maintenance. -/
def maintain (a : Assembly) : Plan Assembly := do
  let (_, a) ← a.carryOut fun around s => s.maintain around
  return a

end Assembly

end HostControl.Cli
