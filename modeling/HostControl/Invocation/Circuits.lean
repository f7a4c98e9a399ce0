/-
Module: HostControl.Invocation.Circuits
Purpose: The circuits of all services outside, one for each name, made on first use.
Main exports: Circuits, Circuits.acquire, Circuits.record, Circuits.reports
-/
import HostControl.Invocation.Circuit
import HostControl.Json.Basic
import HostControl.Table

namespace HostControl.Invocation

/-- Circuits by the names of their services. -/
structure Circuits where
  rules : CircuitRules
  byName : Table String Circuit := []
deriving Repr

/-- What a report tells of one circuit. -/
structure CircuitReport where
  name : String
  state : CircuitState
  consecutiveFailures : Nat
  consecutiveSuccesses : Nat
  requestsInWindow : Nat
  totalRequests : Nat
  totalSuccesses : Nat
  totalFailures : Nat
  rejected : Nat
deriving DecidableEq, Repr

def CircuitReport.toJson (r : CircuitReport) : Json :=
  .obj [("name", .str r.name), ("state", .str r.state.label),
    ("consecutive_failures", .nat r.consecutiveFailures),
    ("consecutive_successes", .nat r.consecutiveSuccesses),
    ("requests_in_window", .nat r.requestsInWindow), ("total_requests", .nat r.totalRequests),
    ("total_successes", .nat r.totalSuccesses), ("total_failures", .nat r.totalFailures),
    ("rejected", .nat r.rejected)]

/-- The report on a circuit. -/
def Circuit.report (name : String) (c : Circuit) : CircuitReport where
  name
  state := c.state
  consecutiveFailures := c.consecutiveFailures
  consecutiveSuccesses := c.consecutiveSuccesses
  requestsInWindow := c.requestsInWindow
  totalRequests := c.totalRequests
  totalSuccesses := c.totalSuccesses
  totalFailures := c.totalFailures
  rejected := c.rejected

namespace Circuits

/-- The circuit of a service, a fresh one if it was never called. -/
def get (name : String) (now : Span) (cs : Circuits) : Circuit :=
  (cs.byName.find? name).getD (Circuit.fresh now)

/-- Asks to call a service. -/
def acquire (name : String) (now : Span) (cs : Circuits) :
    Option Permit × Option Transition × Circuits :=
  let (permit, transition, c) := (cs.get name now).acquire cs.rules now
  (permit, transition, { cs with byName := cs.byName.set name c })

/-- Reports how a call to a service ended. -/
def record (name : String) (permit : Permit) (outcome : Outcome) (now : Span) (cs : Circuits) :
    Circuits × Option Transition :=
  match cs.byName.find? name with
  | none => (cs, none)
  | some c =>
    let (c, transition) := c.record cs.rules permit outcome now
    ({ cs with byName := cs.byName.set name c }, transition)

/-- The report on one service, if it was ever called. -/
def report? (name : String) (cs : Circuits) : Option CircuitReport :=
  (cs.byName.find? name).map (Circuit.report name)

/-- The reports on all services, in the order of their names. -/
def reports (cs : Circuits) : List CircuitReport :=
  (cs.byName.map fun (name, c) => c.report name).mergeSort fun a b => a.name ≤ b.name

end Circuits

end HostControl.Invocation
