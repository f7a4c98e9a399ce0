/-
Module: HostControl.Time.Answer
Purpose: Answers that take time, or never come, and waiting for them no longer than a limit.
Main exports: Answer, Answer.within
-/
import HostControl.Time.Timer

namespace HostControl

/-- What comes back from something outside: a value after a delay, or nothing ever. -/
inductive Answer (α : Type) where
  | after (delay : Delay) (value : α)
  | never
deriving Repr, Inhabited

namespace Answer

/-- The answer that comes at once. -/
def now {α : Type} (value : α) : Answer α := .after none value

def map {α β : Type} (f : α → β) : Answer α → Answer β
  | .after delay value => .after delay (f value)
  | .never => .never

/-- Waiting for an answer from a time of the clock on, until the deadline of a limit: how long it
takes, and the value if it came. An answer that comes just at the limit counts. -/
def within {α : Type} (now limit : Span) : Answer α → Span × Option α
  | .after delay value =>
    if delay.wait now ≤ Timer.deadline now limit then (delay.wait now, some value)
    else (Timer.deadline now limit, none)
  | .never => (Timer.deadline now limit, none)

end Answer

end HostControl
