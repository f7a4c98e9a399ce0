/-
Module: HostControl.Invocation.Invoker
Purpose: Calls of services outside under their circuits. A call is admitted, made, and settled; each
  of the two ends leaves its events for the audit trail.
Main exports: Invoker, Invoker.enter, Invoker.settle, Invoker.call
-/
import HostControl.Audit.Event
import HostControl.Config.Settings
import HostControl.Invocation.Circuits
import HostControl.Invocation.Course

namespace HostControl.Invocation

variable {α : Type}

/-- All that calls share: the circuits of the services, and how often and when to try again. -/
structure Invoker where
  circuits : Circuits
  retry : RetryRules
deriving Repr

/-- A call to make. -/
structure Call (α : Type) where
  service : String
  operation : String
  script : Script α
  draws : Nat → Nat := fun _ => 0

/-- What became of a call for its caller. -/
structure Reply (α : Type) where
  result : Except CallError α
  starts : List Span
  took : Span

namespace Invoker

/-- The invoker of a configuration. A zero counts as one where at least one is needed. -/
def of (breaker : Config.Breaker) (retry : Config.Retry) : Invoker where
  circuits :=
    { rules :=
        { trialCalls := max breaker.maxRequests.toNat 1
          interval :=
            if breaker.intervalSeconds = 0 then none
            else some (Span.ofSeconds breaker.intervalSeconds.toNat)
          cooldown := Span.ofSeconds breaker.cooldownSeconds.toNat
          threshold := max breaker.failureThreshold.toNat 1 } }
  retry := .of retry.maxAttempts.toNat retry.waitMinMillis.toNat retry.waitMaxMillis.toNat

/-- The event for a change of a circuit's state. -/
def transitionEvents (service : String) : Option Transition → List Audit.Event
  | some t => [.transition service t.source.label t.target.label]
  | none => []

/-- The event for a call that has ended. -/
def integrationEvent (call : Call α) (result : Except CallError α) (took : Span) : Audit.Event :=
  let error := match result with
    | .ok _ => none
    | .error e => some e.message
  .integration call.service call.operation error took

/-- Asks the circuit to let a call through. A refused call has ended with that. -/
def enter (call : Call α) (now : Span) (inv : Invoker) :
    Except CallError Permit × List Audit.Event × Invoker :=
  let (permit, transition, circuits) := inv.circuits.acquire call.service now
  let changed := transitionEvents call.service transition
  let inv := { inv with circuits }
  match permit with
  | some permit => (.ok permit, changed, inv)
  | none =>
    let refusal : Except CallError α := .error (.circuitOpen call.service)
    (.error (.circuitOpen call.service), changed ++ [integrationEvent call refusal 0], inv)

/-- Tells the circuit how an admitted call has ended. -/
def settle (call : Call α) (permit : Permit) (account : Account α) (now : Span) (inv : Invoker) :
    Reply α × List Audit.Event × Invoker :=
  let (circuits, transition) := inv.circuits.record call.service permit account.ending.outcome now
  let result := account.ending.result call.service
  (⟨result, account.starts, account.took⟩,
    transitionEvents call.service transition ++ [integrationEvent call result account.took],
    { inv with circuits })

/-- The reply to a call that was refused. -/
def refused (error : CallError) : Reply α := ⟨.error error, [], 0⟩

/-- An event, and when it happened since the clock was started. -/
abbrev Happening := Span × Audit.Event

/-- Makes one call from start to end. There is no reply if the call never ends. -/
def call (call : Call α) (token : Token) (now : Span) (inv : Invoker) :
    Option (Reply α) × List Happening × Invoker :=
  match inv.enter call now with
  | (.error error, events, inv) => (some (refused error), events.map (now, ·), inv)
  | (.ok permit, events, inv) =>
    match Account.of inv.retry call.script call.draws token now none with
    | none => (none, events.map (now, ·), inv)
    | some account =>
      let ended := now + account.took
      let (reply, more, inv) := inv.settle call permit account ended
      (some reply, events.map (now, ·) ++ more.map (ended, ·), inv)

end Invoker

end HostControl.Invocation
