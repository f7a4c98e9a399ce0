/-
Module: HostControl.Invocation.Circuit
Purpose: The circuit breaker of one service outside. A closed circuit lets calls pass and counts
  failures in a row; an open one refuses them until its cooldown is over; a half-open one lets a few
  trial calls decide.
Main exports: CircuitState, CircuitState.next, Circuit, Circuit.acquire, Circuit.record
-/
import HostControl.Time.Instant
import HostControl.Word

namespace HostControl.Invocation

/-- The state of a circuit. -/
inductive CircuitState where
  | closed
  | opened
  | halfOpen
deriving DecidableEq, Repr, Inhabited

/-- What may move a circuit. -/
inductive Signal where
  | success
  | failure
  | cooldownElapsed
deriving DecidableEq, Repr

namespace CircuitState

/-- The name of a state in records and reports. -/
def label : CircuitState → String
  | .closed => "closed"
  | .opened => "open"
  | .halfOpen => "half_open"

/-- The state after a signal. `tripped` tells whether enough calls in a row have failed. -/
def next (state : CircuitState) (signal : Signal) (tripped : Bool) : CircuitState :=
  match state, signal with
  | .closed, .failure => if tripped then .opened else .closed
  | .closed, .success | .closed, .cooldownElapsed => .closed
  | .opened, .cooldownElapsed => .halfOpen
  | .opened, .success | .opened, .failure => .opened
  | .halfOpen, .success => .closed
  | .halfOpen, .failure => .opened
  | .halfOpen, .cooldownElapsed => .halfOpen

end CircuitState

/-- How an admitted call ended. An abandoned one says nothing about the service. -/
inductive Outcome where
  | success
  | failure
  | abandoned
deriving DecidableEq, Repr

/-- What every circuit of an invoker goes by. Without an interval, failures in a row are never
forgotten for their age. -/
structure CircuitRules where
  trialCalls : Nat := 1
  interval : Option Span := none
  cooldown : Span
  threshold : Nat
  trialCalls_pos : 0 < trialCalls := by omega
  threshold_pos : 0 < threshold := by omega
deriving Repr

/-- The right to make one call, with the generation of the circuit that gave it. -/
structure Permit where
  generation : Nat
deriving DecidableEq, Repr, Inhabited

/-- A change of state. -/
structure Transition where
  source : CircuitState
  target : CircuitState
deriving DecidableEq, Repr

/-- The circuit of one service. Every change of state begins a new generation, and with it a new
window of counts. -/
structure Circuit where
  state : CircuitState := .closed
  generation : Nat := 0
  consecutiveFailures : Nat := 0
  consecutiveSuccesses : Nat := 0
  requestsInWindow : Nat := 0
  trialsAdmitted : Nat := 0
  windowStarted : Span
  openedAt : Option Span := none
  totalRequests : Nat := 0
  totalSuccesses : Nat := 0
  totalFailures : Nat := 0
  rejected : Nat := 0
deriving DecidableEq, Repr

namespace Circuit

/-- A circuit that no call has gone through. -/
def fresh (now : Span) : Circuit := { windowStarted := now }

/-- Begins a new window. -/
def resetWindow (now : Span) (c : Circuit) : Circuit :=
  { c with
    consecutiveFailures := 0
    consecutiveSuccesses := 0
    requestsInWindow := 0
    trialsAdmitted := 0
    windowStarted := now }

/-- Whether as many calls in a row have failed as the rules allow. -/
def tripped (rules : CircuitRules) (c : Circuit) : Bool := rules.threshold ≤ c.consecutiveFailures

/-- Moves the circuit as a signal demands. A change of state is reported. -/
def signal (rules : CircuitRules) (s : Signal) (now : Span) (c : Circuit) :
    Circuit × Option Transition :=
  let next := c.state.next s (c.tripped rules)
  if next = c.state then (c, none)
  else
    ({ c.resetWindow now with
        state := next
        generation := Word.following c.generation
        openedAt := if next = .opened then some now else none },
      some ⟨c.state, next⟩)

/-- Whether an open circuit has been open for its cooldown. -/
def cooled (rules : CircuitRules) (now : Span) (c : Circuit) : Bool :=
  c.state = .opened && c.openedAt.any fun at_ => rules.cooldown ≤ now - at_

/-- Lets an open circuit go half-open when its cooldown is over. -/
def cool (rules : CircuitRules) (now : Span) (c : Circuit) : Circuit × Option Transition :=
  if c.cooled rules now then c.signal rules .cooldownElapsed now else (c, none)

/-- Whether the window of a closed circuit is over. -/
def windowOver (rules : CircuitRules) (now : Span) (c : Circuit) : Bool :=
  c.state = .closed && rules.interval.any fun interval => interval ≤ now - c.windowStarted

/-- Begins a new window when that of a closed circuit is over. -/
def renew (rules : CircuitRules) (now : Span) (c : Circuit) : Circuit :=
  if c.windowOver rules now then c.resetWindow now else c

/-- Whether the circuit has room for one more call. -/
def hasRoom (rules : CircuitRules) (c : Circuit) : Bool :=
  match c.state with
  | .closed => true
  | .opened => false
  | .halfOpen => c.trialsAdmitted < rules.trialCalls

/-- Counts a call in, or counts it as refused. -/
def grant (rules : CircuitRules) (c : Circuit) : Option Permit × Circuit :=
  if c.hasRoom rules then
    (some ⟨c.generation⟩,
      { c with
        trialsAdmitted :=
          if c.state = .halfOpen then Word.count32 c.trialsAdmitted else c.trialsAdmitted
        requestsInWindow := Word.count32 c.requestsInWindow
        totalRequests := Word.count64 c.totalRequests })
  else (none, { c with rejected := Word.count64 c.rejected })

/-- Asks to make a call. Gives a permit unless the call is refused, and the change of state that the
question brought about. -/
def acquire (rules : CircuitRules) (now : Span) (c : Circuit) :
    Option Permit × Option Transition × Circuit :=
  let (cooled, transition) := c.cool rules now
  let (permit, after) := (cooled.renew rules now).grant rules
  (permit, transition, after)

/-- Counts an outcome in the totals. -/
def tally (outcome : Outcome) (c : Circuit) : Circuit :=
  match outcome with
  | .success => { c with totalSuccesses := Word.count64 c.totalSuccesses }
  | .failure => { c with totalFailures := Word.count64 c.totalFailures }
  | .abandoned => c

/-- Lets an outcome of the present generation move the circuit. -/
def judge (rules : CircuitRules) (outcome : Outcome) (now : Span) (c : Circuit) :
    Circuit × Option Transition :=
  match outcome with
  | .success =>
    { c with consecutiveSuccesses := Word.count32 c.consecutiveSuccesses, consecutiveFailures := 0 }.signal
      rules .success now
  | .failure =>
    { c with consecutiveFailures := Word.count32 c.consecutiveFailures, consecutiveSuccesses := 0 }.signal
      rules .failure now
  | .abandoned =>
    (if c.state = .halfOpen then { c with trialsAdmitted := c.trialsAdmitted - 1 } else c, none)

/-- Reports how an admitted call ended. A permit of an earlier generation counts in the totals only.
-/
def record (rules : CircuitRules) (permit : Permit) (outcome : Outcome) (now : Span) (c : Circuit) :
    Circuit × Option Transition :=
  let c := c.tally outcome
  if permit.generation = c.generation then c.judge rules outcome now else (c, none)

end Circuit

end HostControl.Invocation
