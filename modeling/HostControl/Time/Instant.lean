/-
Module: HostControl.Time.Instant
Purpose: Points of time on the UTC scale and lengths of time in nanoseconds.
Main exports: Span, Instant, Instant.ofNanos, Instant.totalNanos, Instant.after
-/

namespace HostControl

/-- A length of time, in nanoseconds. -/
abbrev Span := Nat

namespace Span

/-- The nanoseconds of a second. -/
def second : Nat := 1000000000

def ofSeconds (n : Nat) : Span := n * second
def ofMillis (n : Nat) : Span := n * 1000000

/-- Whole milliseconds; a started one does not count. -/
def millis (d : Span) : Nat := d / 1000000

/-- Whole seconds; a started one does not count. -/
def seconds (d : Span) : Nat := d / second

/-- The greatest number that fits into 64 bits. -/
def maxWord : Nat := 18446744073709551615

/-- Whole milliseconds, at most what fits into 64 bits. -/
def wordMillis (d : Span) : Nat := min d.millis maxWord

/-- Tells whether a span fits the greatest length that a timer takes: 64 bits of seconds. -/
def longest : Span := maxWord * second + 999999999

end Span

/-- A point of time: whole seconds since 1970-01-01T00:00:00Z and a fraction. Only inside a leap
second does the fraction reach a whole second. -/
structure Instant where
  seconds : Int
  nanos : Nat
  nanos_lt : nanos < 2 * Span.second := by decide
deriving DecidableEq, Repr

namespace Instant

theorem zero_nanos_lt : 0 < 2 * Span.second := by decide

/-- The position on the time line. Each second has room for a leap second behind it. -/
def rank (t : Instant) : Int := t.seconds * (2 * Span.second) + t.nanos

instance : LT Instant := ⟨fun a b => a.rank < b.rank⟩
instance : LE Instant := ⟨fun a b => a.rank ≤ b.rank⟩
instance (a b : Instant) : Decidable (a < b) := inferInstanceAs (Decidable (a.rank < b.rank))
instance (a b : Instant) : Decidable (a ≤ b) := inferInstanceAs (Decidable (a.rank ≤ b.rank))

theorem le_refl (a : Instant) : a ≤ a := Int.le_refl _
theorem le_trans {a b c : Instant} (h : a ≤ b) (h' : b ≤ c) : a ≤ c := Int.le_trans h h'
theorem not_le {a b : Instant} : ¬ a ≤ b ↔ b < a := Int.not_le
theorem not_lt {a b : Instant} : ¬ a < b ↔ b ≤ a := Int.not_lt

/-- The instant a number of nanoseconds after 1970-01-01T00:00:00Z. -/
def ofNanos (n : Int) : Instant where
  seconds := n / Span.second
  nanos := (n % Span.second).toNat
  nanos_lt := by
    have h := Int.emod_lt_of_pos n (b := (Span.second : Int)) (by decide)
    have h' := Int.emod_nonneg n (b := (Span.second : Int)) (by decide)
    simp only [Span.second] at *
    omega

/-- Nanoseconds since 1970-01-01T00:00:00Z. -/
def totalNanos (t : Instant) : Int := t.seconds * Span.second + t.nanos

instance : Inhabited Instant := ⟨ofNanos 0⟩

/-- The instant that lies the given nanoseconds later, or earlier when they are negative. -/
def after (t : Instant) (n : Int) : Instant := ofNanos (t.totalNanos + n)

/-- The nanoseconds from `earlier` to `t`, none when `t` does not lie later. -/
def since (t earlier : Instant) : Span := (t.totalNanos - earlier.totalNanos).toNat

/-- The first second of the calendar, and the last one. -/
def firstSecond : Int := -8334601228800
def lastSecond : Int := 8210266876799

/-- Whether the calendar reaches as far. -/
def inCalendar (t : Instant) : Bool := firstSecond ≤ t.seconds && t.seconds ≤ lastSecond

/-- The instant the given nanoseconds later, or the same one where the calendar ends before. -/
def afterWithin (t : Instant) (n : Int) : Instant :=
  if (t.after n).inCalendar then t.after n else t

end Instant

end HostControl
