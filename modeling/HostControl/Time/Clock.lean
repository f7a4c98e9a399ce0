/-
Module: HostControl.Time.Clock
Purpose: A clock that shows the time of day and the time that has passed since it was started.
Main exports: Clock, Clock.now, Clock.forward
-/
import HostControl.Time.Instant

namespace HostControl

/-- A clock: when it was started, and the time that has passed since. -/
structure Clock where
  origin : Instant
  elapsed : Span := 0
deriving Repr, Inhabited

namespace Clock

/-- The time of day that lies a span after the clock's start. -/
def timeAt (elapsed : Span) (c : Clock) : Instant := c.origin.after elapsed

/-- The time of day. -/
def now (c : Clock) : Instant := c.timeAt c.elapsed

/-- The clock some time later. -/
def forward (d : Span) (c : Clock) : Clock := { c with elapsed := c.elapsed + d }

/-- The clock at a later point; a clock never goes back. -/
def forwardTo (elapsed : Span) (c : Clock) : Clock := { c with elapsed := max c.elapsed elapsed }

end Clock

end HostControl
