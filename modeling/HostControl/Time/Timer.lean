/-
Module: HostControl.Time.Timer
Purpose: Timers. A timer looks at the clock in steps of one millisecond, counted from the moment at which
  it is set, and goes off at the first look by which the whole milliseconds that the clock shows cover
  the time set. So no time is cut short, and none is stretched by two steps or more. Sleeping has a
  longest time, and a deadline that no clock shows is brought forward to it.
Main exports: Timer.wait, Timer.le_wait, Timer.wait_lt, Timer.sleep, Timer.deadline, Timer.deadline_lt, Delay,
  Delay.wait, Timer.Cutoff, Timer.cutoff_deadline
-/
import HostControl.Time.Instant

namespace HostControl

namespace Timer

/-- The time between two looks of a timer. -/
def step : Nat := Span.ofMillis 1

/-- The least number of steps that are together no shorter than a span. -/
def stepsFor (d : Nat) : Nat := (d + (step - 1)) / step

/-- How long a timer runs that is set at a time of the clock. -/
def wait (now d : Nat) : Nat := stepsFor (now % step + d) * step

/-- The longest sleep: thirty years of 365 days. -/
def longest : Nat := Span.ofSeconds (30 * 365 * 86400)

/-- The seconds that a clock can show, in a signed word of 64 bits. -/
def greatestSecond : Nat := 9223372036854775807

/-- How long a sleep takes that begins at a time of the clock. -/
def sleep (now d : Nat) : Nat := wait now (min d longest)

/-- How long it takes from a time of the clock to a deadline. -/
def deadline (now d : Nat) : Nat := wait now (if Span.seconds d < greatestSecond then d else longest)

theorem le_stepsFor (d : Nat) : d ≤ stepsFor d * step := by
  simp only [stepsFor, step, Span.ofMillis]
  omega

theorem stepsFor_lt (d : Nat) : stepsFor d * step < d + step := by
  simp only [stepsFor, step, Span.ofMillis]
  omega

/-- A timer never goes off early. -/
theorem le_wait (now d : Nat) : d ≤ wait now d := by
  have := le_stepsFor (now % step + d)
  simp only [wait]
  omega

/-- A timer is late by less than two steps. -/
theorem wait_lt (now d : Nat) : wait now d < d + 2 * step := by
  have h := stepsFor_lt (now % step + d)
  have h' : now % step < step := Nat.mod_lt _ (by decide)
  simp only [wait]
  omega

/-- Of two timers set at once, the one set to a longer time does not go off first. -/
theorem wait_mono {d e : Nat} (now : Nat) (h : d ≤ e) : wait now d ≤ wait now e := by
  simp only [wait, stepsFor, step, Span.ofMillis]
  omega

/-- From a whole millisecond on a timer is exact to the millisecond. -/
theorem wait_ofMillis (n m : Nat) : wait (Span.ofMillis n) (Span.ofMillis m) = Span.ofMillis m := by
  simp only [wait, stepsFor, step, Span.ofMillis]
  omega

/-- A deadline that no clock shows lies behind the longest sleep. -/
theorem longest_le {d : Nat} (far : ¬Span.seconds d < greatestSecond) : longest ≤ d := by
  simp only [Span.seconds, Span.second, greatestSecond, longest, Span.ofSeconds] at far ⊢
  omega

/-- A deadline is met late by less than two steps. -/
theorem deadline_lt (now d : Nat) : deadline now d < d + 2 * step := by
  rw [deadline]
  split
  · exact wait_lt now d
  · next far => exact Nat.lt_of_lt_of_le (wait_lt now longest) (Nat.add_le_add_right (longest_le far) _)

/-- No sleep lasts longer than the longest one, up to where the timer looks. -/
theorem sleep_le (now d : Nat) : sleep now d ≤ wait now longest :=
  wait_mono now (Nat.min_le_right d longest)

end Timer

/-- How long something keeps others waiting: not at all, or for a sleep. -/
abbrev Delay := Option Span

/-- The wait for something that begins at a time of the clock. -/
def Delay.wait (now : Span) : Delay → Span
  | none => 0
  | some d => Timer.sleep now d

namespace Timer

/-- What the moment at which an answer is given up is to the deadline for it. It is never two milliseconds behind the
deadline, and never before it; only a deadline that no clock shows is brought forward, to thirty years, which no
answer takes. Where the deadline and the time of the clock are whole milliseconds, it is the deadline. -/
structure Cutoff (now deadline cutoff : Span) : Prop where
  soon : cutoff < deadline + Span.ofMillis 2
  kept : Span.seconds deadline < greatestSecond → deadline ≤ cutoff
  forward : greatestSecond ≤ Span.seconds deadline → longest ≤ cutoff ∧ cutoff < longest + Span.ofMillis 2
  met : greatestSecond ≤ Span.seconds deadline → ∀ delay : Delay, delay.wait now ≤ cutoff
  exact : ∀ n k, now = Span.ofMillis n → deadline = Span.ofMillis k →
    Span.seconds deadline < greatestSecond → cutoff = deadline

theorem cutoff_deadline (now d : Span) : Cutoff now d (deadline now d) where
  soon := deadline_lt now d
  kept near := by
    rw [deadline, if_pos near]
    exact le_wait now d
  forward far := by
    rw [deadline, if_neg (Nat.not_lt.2 far)]
    exact ⟨le_wait now longest, wait_lt now longest⟩
  met far delay := by
    rw [deadline, if_neg (Nat.not_lt.2 far)]
    cases delay with
    | none => exact Nat.zero_le _
    | some time => exact sleep_le now time
  exact := by
    rintro n k rfl rfl near
    rw [deadline, if_pos near, wait_ofMillis]

end Timer

end HostControl
