/-
Module: HostControl.Admission.Bucket
Purpose: A token bucket that refills without steps. It stores one number, the time at which the bucket
  would be full again, and computes in words of 64 bits.
Main exports: Quota, Bucket, Bucket.take, Taking
-/
import HostControl.Time.Instant
import HostControl.Word

namespace HostControl.Admission

/-- Where arithmetic in words of 64 bits has no result. -/
inductive ArithmeticFault where
  | overflow
  | divisionByZero
deriving DecidableEq, Repr

/-- How fast a bucket refills, in tokens a second, and how many tokens it holds. -/
structure Quota where
  rate : Nat
  burst : Nat
  rate_pos : 0 < rate := by omega
  burst_pos : 0 < burst := by omega
deriving DecidableEq, Repr

namespace Quota

/-- The quota of a configured rate and burst. A zero counts as one. -/
def of (rate burst : UInt32) : Quota where
  rate := max rate.toNat 1
  burst := max burst.toNat 1

/-- The nanoseconds in which one token comes back. Above a thousand million tokens a second there are
none. -/
def interval (q : Quota) : Span := Span.second / q.rate

/-- The nanoseconds in which an empty bucket fills up. -/
def tolerance (q : Quota) : Span := max q.interval 1 * q.burst

theorem interval_pos {q : Quota} (h : q.rate ≤ Span.second) : 0 < q.interval :=
  Nat.div_pos h q.rate_pos

theorem tolerance_eq {q : Quota} (h : q.rate ≤ Span.second) : q.tolerance = q.interval * q.burst := by
  have h1 : 1 ≤ q.interval := interval_pos h
  rw [tolerance, Nat.max_eq_left h1]

end Quota

/-- A token bucket: when it was made, and when it will be full again, counted from there; that is not
known before the first token is taken. -/
structure Bucket where
  quota : Quota
  made : Span
  fullAt : Option Span := none
deriving DecidableEq, Repr

/-- What an attempt to take a token gave: one, with the number that is left, or none, with the time
until there is one. -/
inductive Taking where
  | admitted (remaining : Nat)
  | throttled (wait : Span)
deriving DecidableEq, Repr

namespace Bucket

/-- A sum, if it fits into 64 bits. -/
def sum (a b : Nat) : Except ArithmeticFault Nat :=
  if a + b ≤ Word.max64 then .ok (a + b) else .error .overflow

/-- A quotient. -/
def quotient (a b : Nat) : Except ArithmeticFault Nat :=
  if b = 0 then .error .divisionByZero else .ok (a / b)

/-- The tokens left at `now` when the bucket will be full at `fullAt`. -/
def remaining (q : Quota) (now fullAt : Span) : Except ArithmeticFault Nat := do
  let later ← sum now q.interval
  let latest ← sum later q.tolerance
  quotient (min (latest - fullAt) q.tolerance) q.interval

/-- Takes a token at a time that is counted from the making of the bucket. -/
def takeAt (now : Span) (b : Bucket) : Except ArithmeticFault (Taking × Bucket) := do
  let fullAt ← match b.fullAt with
    | some time => .ok time
    | none => sum now b.quota.interval
  let earliest := fullAt - b.quota.tolerance
  if now < earliest then return (.throttled (earliest - now), b)
  let next ← sum (max fullAt now) b.quota.interval
  let left ← remaining b.quota now next
  return (.admitted left, { b with fullAt := some next })

/-- Takes a token. -/
def take (now : Span) (b : Bucket) : Except ArithmeticFault (Taking × Bucket) :=
  b.takeAt (now - b.made)

end Bucket

end HostControl.Admission
