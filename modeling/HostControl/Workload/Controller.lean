/-
Module: HostControl.Workload.Controller
Purpose: Supervision of containers through the runtime. Every operation makes one call at most, within
  a deadline, and no call is repeated; starts, stops and restarts are recorded.
Main exports: reference, Workload.Error, RuntimeCall, Runtime, Workload.Controller
-/
import HostControl.Audit.Event
import HostControl.Config.Settings
import HostControl.Text.Blank
import HostControl.Time.Clock
import HostControl.Time.Answer
import HostControl.Workload.Snapshot

namespace HostControl.Workload

open Text

/-- Why an operation failed. -/
inductive Error where
  | validation (text : String)
  | notFound (target : String)
  | runtime (operation target message : String)
  | timeout (operation target : String) (seconds : Nat)
deriving DecidableEq, Repr

def Error.message : Error → String
  | .validation text => "invalid container reference: " ++ text
  | .notFound target => "container " ++ target ++ " not found"
  | .runtime operation target text => "failed to " ++ operation ++ " " ++ target ++ ": " ++ text
  | .timeout operation target seconds =>
    operation ++ " on " ++ target ++ " timed out after " ++ String.ofList (decimal seconds) ++ "s"

/-! ### References to containers -/

/-- Characters of container names and ids. -/
def isReferenceChar (c : Char) : Bool :=
  (65 ≤ c.toNat && c.toNat ≤ 90) || (97 ≤ c.toNat && c.toNat ≤ 122) ||
    (48 ≤ c.toNat && c.toNat ≤ 57) || c == '_' || c == '.' || c == '-'

/-- A text without blanks around it and without slashes in front. -/
def cleaned (id : String) : List Char := (trimChars id.toList).dropWhile (· == '/')

/-- The name or id that a text refers to. -/
def reference (id : String) : Except Error String :=
  let name := cleaned id
  if name.isEmpty then .error (.validation "empty container id")
  else if name.all isReferenceChar then .ok (String.ofList name)
  else .error (.validation (String.ofList name ++ " is not a container id or name"))

/-! ### The runtime -/

/-- How a call of the runtime fails. -/
inductive RuntimeError where
  | notFound (message : String)
  | api (message : String)
deriving DecidableEq, Repr

/-- Which lines of a log are asked for. -/
structure LogQuery where
  tail : Option Nat := none
  since : Option Instant := none
  timestamps : Bool := false
deriving Repr

/-- The number of lines when none is given, and the greatest one. -/
def defaultTail : Nat := 100
def greatestTail : Nat := 5000

/-- The number of lines asked for: at least one, and no more than the greatest number. -/
def boundedTail (tail : Option Nat) : Nat := min (max (tail.getD defaultTail) 1) greatestTail

/-- A call of the runtime. -/
inductive RuntimeCall where
  | list (all : Bool)
  | inspect (id : String)
  | start (id : String)
  | stop (id : String) (grace : Span)
  | restart (id : String) (grace : Span)
  | logs (id : String) (query : LogQuery)
  | stats (id : String)
  | images
  | networks
  | volumes
  | info
  | ping
deriving Repr

/-- A call on one line, with its arguments. -/
def RuntimeCall.text : RuntimeCall → String
  | .list all => s!"list {all}"
  | .inspect id => "inspect " ++ id
  | .start id => "start " ++ id
  | .stop id grace => s!"stop {id} {Span.millis grace}ms"
  | .restart id grace => s!"restart {id} {Span.millis grace}ms"
  | .logs id query =>
    let since := (query.since.map Rfc3339.offsetZero).getD "-"
    s!"logs {id} tail={boundedTail query.tail} since={since} timestamps={query.timestamps}"
  | .stats id => "stats " ++ id
  | .images => "images"
  | .networks => "networks"
  | .volumes => "volumes"
  | .info => "info"
  | .ping => "ping"

/-- What the runtime answers to the next call, whichever it is. -/
structure Runtime where
  list : Answer (Except RuntimeError (List Container))
  inspect : Answer (Except RuntimeError Container)
  start : Answer (Except RuntimeError Unit)
  stop : Answer (Except RuntimeError Unit)
  restart : Answer (Except RuntimeError Unit)
  logs : Answer (Except RuntimeError String)
  stats : Answer (Except RuntimeError StatsSample)
  images : Answer (Except RuntimeError (List Image))
  networks : Answer (Except RuntimeError (List RuntimeNetwork))
  volumes : Answer (Except RuntimeError (List Volume))
  info : Answer (Except RuntimeError RuntimeInfo)
  ping : Answer (Except RuntimeError Unit)

/-! ### Operations -/

/-- What an operation came to: its result, the time it took, the calls it made, and the events for the
audit trail. -/
structure Run (α : Type) where
  result : Except Error α
  took : Span := 0
  calls : List RuntimeCall := []
  events : List Audit.Event := []

/-- The same run with another result. -/
def Run.map {α β : Type} (f : α → β) (r : Run α) : Run β :=
  { result := r.result.map f, took := r.took, calls := r.calls, events := r.events }

/-- An operation that was refused before any call. -/
def Run.refused {α : Type} (e : Error) : Run α := { result := .error e }

/-- What the operations go by. -/
structure Controller where
  deadline : Span
  defaultGrace : Span
  namePrefix : String
deriving Repr

namespace Controller

def of (config : Config.Docker) : Controller where
  deadline := Span.ofSeconds (max config.timeoutSeconds.toNat 1)
  defaultGrace := Span.ofSeconds config.stopGraceSeconds.toNat
  namePrefix := config.namePrefix

/-- The deadline of an operation that leaves a container time to end. -/
def deadlineWith (grace : Span) (c : Controller) : Span := min (c.deadline + grace) Span.longest

/-- The result of a call whose answer is awaited until the deadline. -/
def verdict {α : Type} (operation target : String) (deadline : Span) :
    Option (Except RuntimeError α) → Except Error α
  | some (.ok value) => .ok value
  | some (.error (.notFound _)) => .error (.notFound target)
  | some (.error (.api message)) => .error (.runtime operation target message)
  | none => .error (.timeout operation target deadline.seconds)

/-- Makes one call at a time of the clock, and awaits its answer until a deadline. -/
def perform {α : Type} (operation target : String) (deadline : Span) (call : RuntimeCall)
    (answer : Answer (Except RuntimeError α)) (now : Span) : Run α :=
  let (took, value) := answer.within now deadline
  { result := verdict operation target deadline value, took, calls := [call] }

/-- What calls that concern the host name as their target. -/
def hostTarget : String := "runtime"

/-- Does something with a container if the text refers to one. -/
def withReference {α : Type} (id : String) (body : String → Run α) : Run α :=
  match reference id with
  | .ok name => body name
  | .error e => .refused e

/-- Adds the event of a start, stop or restart. -/
def recorded (ctx : Context) (action target : String) (grace : Option Span) (r : Run Unit) : Run Unit :=
  let error := match r.result with
    | .ok _ => none
    | .error e => some e.message
  let event := ({ action, actor := ctx.actor, resource := target } : Audit.Event)
    |>.withContext ctx |>.outcome error |>.took r.took
  let event := match grace with
    | some g => event.detail "grace_secs" (.nat g.seconds)
    | none => event
  { r with events := r.events ++ [event] }

/-- All containers, stopped ones too. -/
def list (rt : Runtime) (now : Span) (c : Controller) : Run (List Container) :=
  perform "list containers" hostTarget c.deadline (.list true) rt.list now

/-- The platform's own containers, by name. -/
def platform (rt : Runtime) (now : Span) (c : Controller) : Run (List Container) :=
  (c.list rt now).map fun all =>
    (all.filter fun x => c.namePrefix.toList.isPrefixOf x.name.toList).mergeSort fun a b =>
      a.name ≤ b.name

def describe (id : String) (rt : Runtime) (now : Span) (c : Controller) : Run Container :=
  withReference id fun name =>
    perform "inspect container" name c.deadline (.inspect name) rt.inspect now

def start (ctx : Context) (id : String) (rt : Runtime) (now : Span) (c : Controller) : Run Unit :=
  withReference id fun name =>
    recorded ctx "container_start" name none
      (perform "start container" name c.deadline (.start name) rt.start now)

/-- Stops a container, which gets the grace period to end by itself. -/
def stop (ctx : Context) (id : String) (grace : Option Span) (rt : Runtime) (now : Span)
    (c : Controller) : Run Unit :=
  withReference id fun name =>
    let grace := grace.getD c.defaultGrace
    recorded ctx "container_stop" name (some grace)
      (perform "stop container" name (c.deadlineWith grace) (.stop name grace) rt.stop now)

/-- Stops a container and starts it again. -/
def restart (ctx : Context) (id : String) (grace : Option Span) (rt : Runtime) (now : Span)
    (c : Controller) : Run Unit :=
  withReference id fun name =>
    let grace := grace.getD c.defaultGrace
    recorded ctx "container_restart" name (some grace)
      (perform "restart container" name (c.deadlineWith grace) (.restart name grace) rt.restart now)

/-- The last lines of a container's log. -/
def logs (id : String) (query : LogQuery) (rt : Runtime) (now : Span) (c : Controller) : Run String :=
  withReference id fun name => perform "read logs" name c.deadline (.logs name query) rt.logs now

/-- What a container uses now. -/
def stats (id : String) (rt : Runtime) (clock : Clock) (c : Controller) : Run ContainerStats :=
  withReference id fun name =>
    let r := perform "read stats" name c.deadline (.stats name) rt.stats clock.elapsed
    r.map fun sample => sample.stats name (clock.forward r.took).now

def images (rt : Runtime) (now : Span) (c : Controller) : Run (List Image) :=
  perform "list images" hostTarget c.deadline .images rt.images now

def networks (rt : Runtime) (now : Span) (c : Controller) : Run (List RuntimeNetwork) :=
  perform "list networks" hostTarget c.deadline .networks rt.networks now

def volumes (rt : Runtime) (now : Span) (c : Controller) : Run (List Volume) :=
  perform "list volumes" hostTarget c.deadline .volumes rt.volumes now

def info (rt : Runtime) (now : Span) (c : Controller) : Run RuntimeInfo :=
  perform "read system info" hostTarget c.deadline .info rt.info now

/-- Whether the runtime answers in time. -/
def ping (rt : Runtime) (now : Span) (c : Controller) : Run Bool :=
  let r := perform "ping" hostTarget c.deadline .ping rt.ping now
  { result := .ok (match r.result with | .ok _ => true | .error _ => false)
    took := r.took
    calls := r.calls }

end Controller

end HostControl.Workload
