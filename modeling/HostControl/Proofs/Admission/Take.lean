/-
Module: HostControl.Proofs.Admission.Take
Purpose: One take from a token bucket in closed form. A take is decided by the time at which its bucket is full
  again, and what it gives by how far that is; it has no result where its sums do not fit into words or its rate
  leaves no whole nanosecond for a token.
Main exports: Bucket.Ready, Bucket.Fits, take_closed, take_error_iff, admits_iff, take_throttled,
  take_admitted
-/
import HostControl.Proofs.Admission.Window

namespace HostControl.Admission

/-! ### Quotas -/

namespace Quota

/-- Above a thousand million tokens a second no time is left for a token. -/
theorem interval_eq_zero_iff {q : Quota} : q.interval = 0 ↔ Span.second < q.rate := by
  unfold interval
  rw [Nat.div_eq_zero_iff]
  have positive := q.rate_pos
  omega

theorem interval_le_second (q : Quota) : q.interval ≤ Span.second := Nat.div_le_self _ _

theorem interval_le_tolerance (q : Quota) : q.interval ≤ q.tolerance :=
  Nat.le_trans (Nat.le_max_left _ 1) (Nat.le_mul_of_pos_right _ q.burst_pos)

/-- What a burst of 32 bits takes at most to come back. -/
def longestRefill : Span := Span.ofSeconds Word.max32

theorem tolerance_of_le (rate burst : UInt32) : (Quota.of rate burst).tolerance ≤ longestRefill := by
  have word : burst.toNat < 4294967296 := burst.toNat_lt
  have few : (Quota.of rate burst).burst ≤ Word.max32 := by
    simp only [Quota.of, Word.max32]
    omega
  have short : max (Quota.of rate burst).interval 1 ≤ Span.second :=
    Nat.max_le.2 ⟨interval_le_second _, by decide⟩
  rw [tolerance, longestRefill, Span.ofSeconds, Nat.mul_comm]
  exact Nat.mul_le_mul few short

end Quota

/-! ### One take in closed form -/

namespace Bucket

variable {b : Bucket} {now : Span}

/-- A take finds a token. -/
def Ready (now : Span) (b : Bucket) : Prop := b.due now ≤ now - b.made + b.quota.tolerance

/-- The sums of a take fit into words. -/
def Fits (now : Span) (b : Bucket) : Prop :=
  now - b.made + b.quota.interval + b.quota.tolerance ≤ Word.max64

instance (now : Span) (b : Bucket) : Decidable (b.Ready now) := inferInstanceAs (Decidable (_ ≤ _))
instance (now : Span) (b : Bucket) : Decidable (b.Fits now) := inferInstanceAs (Decidable (_ ≤ _))

/-- A bucket that has not been used is ready. -/
theorem ready_of_unused (unused : b.fullAt = none) (now : Span) : b.Ready now := by
  rw [Ready, due, unused, Option.getD_none]
  exact Nat.add_le_add_left b.quota.interval_le_tolerance _

/-- What is left when a bucket is full an interval from now or later. -/
theorem remaining_closed {q : Quota} {age full : Nat} (later : age + q.interval ≤ full) :
    remaining q age full =
      if age + q.interval + q.tolerance ≤ Word.max64 then
        quotient (age + q.interval + q.tolerance - full) q.interval
      else .error .overflow := by
  have smaller : min (age + q.interval + q.tolerance - full) q.tolerance =
      age + q.interval + q.tolerance - full := by
    apply Nat.min_eq_left
    omega
  unfold remaining
  by_cases first : age + q.interval ≤ Word.max64
  · by_cases second : age + q.interval + q.tolerance ≤ Word.max64
    · simp only [sum_ok first, sum_ok second, smaller, second, if_true, bind, Except.bind]
    · simp only [sum_ok first, sum_error second, second, if_false, bind, Except.bind]
  · have second : ¬ age + q.interval + q.tolerance ≤ Word.max64 :=
      fun fits => first (Nat.le_trans (Nat.le_add_right _ _) fits)
    simp only [sum_error first, second, if_false, bind, Except.bind]

/-- A take gives a wait while there is no token. With one it fails where its sums do not fit into words or its
rate leaves no time for a token, and else it spends the token and tells how many are left. -/
theorem take_closed (now : Span) (b : Bucket) :
    b.take now =
      if ¬ b.Ready now then .ok (.throttled (b.due now - b.quota.tolerance - (now - b.made)), b)
      else if ¬ b.Fits now then .error .overflow
      else if Span.second < b.quota.rate then .error .divisionByZero
      else .ok (.admitted ((now - b.made + b.quota.tolerance - max (b.due now) (now - b.made)) /
        b.quota.interval), b.spent now) := by
  by_cases room : b.fullAt = none → now - b.made + b.quota.interval ≤ Word.max64
  · rw [take_eq room]
    by_cases ready : b.Ready now
    · have reached : ¬ now - b.made < b.due now - b.quota.tolerance := by
        unfold Ready at ready
        unfold Span at *
        omega
      have later : now - b.made + b.quota.interval ≤
          max (b.due now) (now - b.made) + b.quota.interval :=
        Nat.add_le_add_right (Nat.le_max_right _ _) _
      rw [if_neg reached, if_neg (Classical.not_not.2 ready)]
      by_cases fits : b.Fits now
      · have sums : now - b.made + b.quota.interval + b.quota.tolerance ≤ Word.max64 := fits
        have whole : max (b.due now) (now - b.made) + b.quota.interval ≤ Word.max64 := by
          unfold Ready at ready
          unfold Span at *
          omega
        rw [if_neg (Classical.not_not.2 fits)]
        simp only [sum_ok whole, remaining_closed later, bind, Except.bind]
        rw [if_pos sums, quotient]
        by_cases fast : Span.second < b.quota.rate
        · rw [if_pos (Quota.interval_eq_zero_iff.2 fast), if_pos fast]
        · rw [if_neg (mt Quota.interval_eq_zero_iff.1 fast), if_neg fast]
          simp only [pure, Except.pure, spent]
          congr 4
          unfold Span at *
          omega
      · have wide : ¬ now - b.made + b.quota.interval + b.quota.tolerance ≤ Word.max64 := fits
        rw [if_pos fits]
        by_cases whole : max (b.due now) (now - b.made) + b.quota.interval ≤ Word.max64
        · simp only [sum_ok whole, remaining_closed later, bind, Except.bind]
          rw [if_neg wide]
        · simp only [sum_error whole, bind, Except.bind]
    · have short : now - b.made < b.due now - b.quota.tolerance := by
        unfold Ready at ready
        unfold Span at *
        omega
      rw [if_pos short, if_pos ready]
  · obtain ⟨unused, wide⟩ := Classical.not_imp.1 room
    have tight : ¬ b.Fits now := fun fits => wide (Nat.le_trans (Nat.le_add_right _ _) fits)
    rw [if_neg (Classical.not_not.2 (ready_of_unused unused now)), if_pos tight]
    simp only [take, takeAt, unused, sum_error wide, bind, Except.bind]

/-- When a take has no result: there is a token for it, but a sum does not fit into a word, or the rate leaves no
time for a token. -/
theorem take_error_iff {fault : ArithmeticFault} :
    b.take now = .error fault ↔
      b.Ready now ∧ ((¬ b.Fits now ∧ fault = .overflow) ∨
        (b.Fits now ∧ Span.second < b.quota.rate ∧ fault = .divisionByZero)) := by
  rw [take_closed]
  by_cases ready : b.Ready now
  · by_cases fits : b.Fits now
    · by_cases fast : Span.second < b.quota.rate
      · simp [ready, fits, fast, eq_comm]
      · simp [ready, fits, fast]
    · simp [ready, fits, eq_comm]
  · simp [ready]

/-- A take is admitted where there is a token, its sums fit into words, and an interval is not nothing. -/
theorem admits_iff (slow : b.quota.rate ≤ Span.second) : b.admits now = true ↔ b.Ready now ∧ b.Fits now := by
  have timed : ¬ Span.second < b.quota.rate := Nat.not_lt_of_le slow
  rw [admits, take_closed]
  by_cases ready : b.Ready now
  · by_cases fits : b.Fits now
    · simp [ready, fits, timed]
    · simp [ready, fits]
  · simp [ready]

/-- Only a bucket that has been used and is without a token makes a take wait, and it stays as it was. -/
theorem take_throttled {wait : Span} {next : Bucket} (refused : b.take now = .ok (.throttled wait, next)) :
    next = b ∧ ∃ full, b.fullAt = some full ∧ now - b.made + b.quota.tolerance < full ∧
      wait = full - b.quota.tolerance - (now - b.made) := by
  have empty : ¬ b.Ready now := by
    intro ready
    rw [take_closed, if_neg (Classical.not_not.2 ready)] at refused
    split at refused
    · cases refused
    · split at refused
      · cases refused
      · cases refused
  rw [take_closed, if_pos empty] at refused
  cases refused
  cases known : b.fullAt with
  | none => exact absurd (ready_of_unused known now) empty
  | some full =>
    rw [Ready, due, known, Option.getD_some] at empty
    refine ⟨rfl, full, rfl, Nat.lt_of_not_le empty, ?_⟩
    rw [due, known, Option.getD_some]

/-- An admitted take tells how many intervals the bucket was short of the tolerance, and puts the time at which
it is full off by one. -/
theorem take_admitted {left : Nat} {next : Bucket} (taken : b.take now = .ok (.admitted left, next)) :
    b.Ready now ∧ b.Fits now ∧ next = b.spent now ∧
      left = (now - b.made + b.quota.tolerance - max (b.due now) (now - b.made)) / b.quota.interval := by
  rw [take_closed] at taken
  by_cases ready : b.Ready now
  · rw [if_neg (Classical.not_not.2 ready)] at taken
    by_cases fits : b.Fits now
    · rw [if_neg (Classical.not_not.2 fits)] at taken
      split at taken
      · cases taken
      · cases taken
        exact ⟨ready, fits, rfl, rfl⟩
    · rw [if_pos fits] at taken
      cases taken
  · rw [if_pos ready] at taken
    cases taken

end Bucket

end HostControl.Admission
