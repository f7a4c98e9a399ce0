/-
Module: HostControl.Invocation.Backoff
Purpose: How often a call is tried, and how long it waits between two attempts. The wait doubles with
  every retry, within fixed bounds, and a random part of it is left out.
Main exports: RetryRules, RetryRules.ceiling, RetryRules.floor, RetryRules.backoff, RetryRules.delay
-/
import HostControl.Invocation.Failure

namespace HostControl.Invocation

/-- Bounds on the attempts of a call and, in milliseconds, on the waits between them. -/
structure RetryRules where
  attempts : Nat
  minimum : Nat
  maximum : Nat
  attempts_pos : 0 < attempts := by omega
  minimum_le : minimum ≤ maximum := by omega
deriving Repr

namespace RetryRules

/-- The rules for a configured number of attempts and configured bounds. There is always one attempt,
and the greater bound is never below the lesser one. -/
def of (attempts minimum maximum : Nat) : RetryRules where
  attempts := max attempts 1
  minimum := minimum
  maximum := max maximum minimum

/-- How much longer than the first wait a later one may be: doubled for every retry before it, within
64 bits. -/
def factor (retry : Nat) : Nat := if retry < 64 then Nat.pow 2 retry else Word.max64

/-- The longest wait before a retry; the first one has number zero. -/
def ceiling (rules : RetryRules) (retry : Nat) : Nat :=
  min (Word.cap64 (rules.minimum * factor retry)) rules.maximum

/-- The shortest wait before a retry: half of the longest one, but no less than the minimum. -/
def floor (rules : RetryRules) (retry : Nat) : Nat :=
  min (max (rules.ceiling retry / 2) rules.minimum) (rules.ceiling retry)

/-- The wait before a retry, in milliseconds. The draw picks one of the waits from the shortest to the
longest. -/
def backoff (rules : RetryRules) (retry draw : Nat) : Nat :=
  rules.floor retry + draw % (rules.ceiling retry - rules.floor retry + 1)

/-- The wait before a retry after a failure: exactly what the service asked for, or the backoff. -/
def delay (rules : RetryRules) (retry draw : Nat) (failure : Failure) : Span :=
  match failure.requestedWait with
  | some wait => wait
  | none => Span.ofMillis (rules.backoff retry draw)

theorem floor_le_ceiling (rules : RetryRules) (retry : Nat) :
    rules.floor retry ≤ rules.ceiling retry := Nat.min_le_right _ _

theorem backoff_bounds (rules : RetryRules) (retry draw : Nat) :
    rules.floor retry ≤ rules.backoff retry draw ∧ rules.backoff retry draw ≤ rules.ceiling retry := by
  have h := rules.floor_le_ceiling retry
  have hm : draw % (rules.ceiling retry - rules.floor retry + 1) <
      rules.ceiling retry - rules.floor retry + 1 := Nat.mod_lt _ (by omega)
  simp only [backoff]
  omega

end RetryRules

end HostControl.Invocation
