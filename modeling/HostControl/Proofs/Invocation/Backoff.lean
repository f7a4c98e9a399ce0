/-
Module: HostControl.Proofs.Invocation.Backoff
Purpose: The bounds on the waits between attempts hold at every size: for bounds in either order, for a minimum of
  zero, and for retries beyond the width of a word. The arithmetic of 64 bits, in which a product stays at the greatest
  word, comes to what the formula gives over the integers, and no step of it leaves its word.
Main exports: Word.shifted?, Word.times, ceilingWord, floorWord, waitWord?, waitWord?_eq_some, RetryRules.ceiling_eq,
  RetryRules.Bounded, Invoker.waits_bounded
-/
import Mathlib.Algebra.Group.Nat.Defs
import HostControl.Invocation.Invoker

namespace HostControl

/-! ### Words -/

namespace Word

/-- The greatest word. -/
def greatest : UInt64 := 18446744073709551615

/-- One, shifted by fewer places than a word has. -/
def shifted? (places : UInt32) : Option UInt64 := if places < 64 then some (1 <<< places.toUInt64) else none

/-- A product, or the greatest word where it is larger. -/
def times (a b : UInt64) : UInt64 := if a = 0 ∨ b ≤ greatest / a then a * b else greatest

/-- A sum, unless it is larger than every word. -/
def sum? (a b : UInt64) : Option UInt64 := if b ≤ greatest - a then some (a + b) else none

/-- A difference, unless it is below zero. -/
def difference? (a b : UInt64) : Option UInt64 := if b ≤ a then some (a - b) else none

theorem toNat_le_max64 (a : UInt64) : a.toNat ≤ max64 := Nat.le_of_lt_succ a.toNat_lt

theorem mod_word {n : Nat} (fits : n ≤ max64) : n % 2 ^ 64 = n := Nat.mod_eq_of_lt (Nat.lt_succ_of_le fits)

theorem toNat_shifted? (places : UInt32) :
    ((shifted? places).getD greatest).toNat = if places.toNat < 64 then 2 ^ places.toNat else max64 := by
  unfold shifted?
  by_cases fits : places < 64
  · have small : places.toNat < 64 := UInt32.lt_iff_toNat_lt.1 fits
    have power : 2 ^ places.toNat < 2 ^ 64 := Nat.pow_lt_pow_right (by decide) small
    rw [if_pos fits, if_pos small, Option.getD_some, UInt64.toNat_shiftLeft, UInt32.toNat_toUInt64,
      Nat.mod_eq_of_lt small, UInt64.toNat_one, Nat.one_shiftLeft, Nat.mod_eq_of_lt power]
  · have large : ¬places.toNat < 64 := fun small => fits (UInt32.lt_iff_toNat_lt.2 small)
    rw [if_neg fits, if_neg large]
    rfl

theorem toNat_times (a b : UInt64) : (times a b).toNat = cap64 (a.toNat * b.toNat) := by
  have exact (fits : a.toNat * b.toNat ≤ max64) : (a * b).toNat = cap64 (a.toNat * b.toNat) := by
    rw [UInt64.toNat_mul, mod_word fits, cap64, Nat.min_eq_left fits]
  unfold times
  by_cases zero : a = 0
  · rw [if_pos (.inl zero)]
    exact exact (by simp [zero])
  · have pos : 0 < a.toNat := Nat.pos_of_ne_zero fun none => zero (UInt64.toNat_inj.1 none)
    have within : b ≤ greatest / a ↔ a.toNat * b.toNat ≤ max64 := by
      rw [UInt64.le_iff_toNat_le, UInt64.toNat_div, Nat.le_div_iff_mul_le pos, Nat.mul_comm]
      rfl
    by_cases fits : b ≤ greatest / a
    · rw [if_pos (.inr fits)]
      exact exact (within.1 fits)
    · have exceeds : max64 ≤ a.toNat * b.toNat := Nat.le_of_not_le (mt within.2 fits)
      rw [if_neg (by simp [zero, fits]), cap64, Nat.min_eq_right exceeds]
      rfl

theorem sum?_eq_some {a b : UInt64} (fits : a.toNat + b.toNat ≤ max64) :
    ∃ c, sum? a b = some c ∧ c.toNat = a.toNat + b.toNat := by
  have room : (greatest - a).toNat = max64 - a.toNat :=
    UInt64.toNat_sub_of_le _ _ (UInt64.le_iff_toNat_le.2 (toNat_le_max64 a))
  have within : b ≤ greatest - a := by
    rw [UInt64.le_iff_toNat_le, room]
    omega
  refine ⟨a + b, if_pos within, ?_⟩
  rw [UInt64.toNat_add, mod_word fits]

theorem difference?_eq_some {a b : UInt64} (fits : b.toNat ≤ a.toNat) :
    ∃ c, difference? a b = some c ∧ c.toNat = a.toNat - b.toNat := by
  have within : b ≤ a := UInt64.le_iff_toNat_le.2 fits
  exact ⟨a - b, if_pos within, UInt64.toNat_sub_of_le _ _ within⟩

theorem toNat_min (a b : UInt64) : (min a b).toNat = min a.toNat b.toNat := by
  have chosen : min a b = if a ≤ b then a else b := rfl
  rw [chosen, Nat.min_def]
  simp only [UInt64.le_iff_toNat_le]
  split <;> rfl

theorem toNat_max (a b : UInt64) : (max a b).toNat = max a.toNat b.toNat := by
  have chosen : max a b = if a ≤ b then b else a := rfl
  rw [chosen, Nat.max_def]
  simp only [UInt64.le_iff_toNat_le]
  split <;> rfl

end Word

namespace Invocation

open Word

/-! ### Bounds over the integers -/

namespace RetryRules

section
variable {rules : RetryRules} (small : rules.maximum ≤ max64)
include small

/-- The longest wait is the one of the plain formula: where the product or the factor stays at the greatest number of
64 bits, the formula exceeds the maximum as well. -/
theorem ceiling_eq (retry : Nat) : rules.ceiling retry = min (rules.minimum * 2 ^ retry) rules.maximum := by
  have capped (n : Nat) : min (cap64 n) rules.maximum = min n rules.maximum := by
    rw [cap64, Nat.min_assoc, Nat.min_eq_right small]
  rw [ceiling, capped]
  by_cases short : retry < 64
  · rw [factor, if_pos short]
    rfl
  · rw [factor, if_neg short]
    rcases Nat.eq_zero_or_pos rules.minimum with zero | pos
    · rw [zero, Nat.zero_mul, Nat.zero_mul]
    · have power : max64 ≤ 2 ^ retry :=
        Nat.le_trans (by decide) (Nat.pow_le_pow_right (by decide) (Nat.le_of_not_lt short))
      have exceeds {n : Nat} (large : max64 ≤ n) : rules.maximum ≤ rules.minimum * n :=
        Nat.le_trans (Nat.le_trans small large) (Nat.le_mul_of_pos_left n pos)
      rw [Nat.min_eq_right (exceeds (Nat.le_refl _)), Nat.min_eq_right (exceeds power)]

theorem ceiling_mono {retry later : Nat} (after : retry ≤ later) : rules.ceiling retry ≤ rules.ceiling later := by
  have product : rules.minimum * 2 ^ retry ≤ rules.minimum * 2 ^ later :=
    Nat.mul_le_mul_left _ (Nat.pow_le_pow_right (by decide) after)
  rw [ceiling_eq small, ceiling_eq small]
  omega

theorem floor_mono {retry later : Nat} (after : retry ≤ later) : rules.floor retry ≤ rules.floor later := by
  have grows := ceiling_mono small after
  unfold floor
  omega

theorem minimum_le_floor (retry : Nat) : rules.minimum ≤ rules.floor retry := by
  have product : rules.minimum ≤ rules.minimum * 2 ^ retry := Nat.le_mul_of_pos_right _ (Nat.two_pow_pos retry)
  have ordered := rules.minimum_le
  have ceiling := ceiling_eq small retry
  unfold floor
  omega

end

theorem ceiling_le_maximum (rules : RetryRules) (retry : Nat) : rules.ceiling retry ≤ rules.maximum :=
  Nat.min_le_right _ _

theorem half_ceiling_le_floor (rules : RetryRules) (retry : Nat) : rules.ceiling retry / 2 ≤ rules.floor retry := by
  unfold floor
  omega

/-- The waits that draws pick are those from the shortest to the longest one. -/
theorem exists_backoff_iff (rules : RetryRules) (retry wait : Nat) :
    (∃ draw, rules.backoff retry draw = wait) ↔ rules.floor retry ≤ wait ∧ wait ≤ rules.ceiling retry := by
  constructor
  · rintro ⟨draw, rfl⟩
    exact rules.backoff_bounds retry draw
  · rintro ⟨above, below⟩
    refine ⟨wait - rules.floor retry, ?_⟩
    rw [backoff, Nat.mod_eq_of_lt (by omega), Nat.add_sub_cancel' above]

theorem backoff_of_settled {rules : RetryRules} {retry : Nat} (settled : rules.floor retry = rules.ceiling retry)
    (draw : Nat) : rules.backoff retry draw = rules.ceiling retry := by
  rw [backoff, settled, Nat.sub_self, Nat.mod_one, Nat.add_zero]

end RetryRules

/-! ### Waits in words -/

/-- The longest wait before a retry. -/
def ceilingWord (minimum maximum : UInt64) (retry : UInt32) : UInt64 :=
  min (times minimum ((shifted? retry).getD greatest)) (max maximum minimum)

/-- The shortest wait before a retry. -/
def floorWord (minimum maximum : UInt64) (retry : UInt32) : UInt64 :=
  min (max (ceilingWord minimum maximum retry / 2) minimum) (ceilingWord minimum maximum retry)

/-- The wait before a retry that a draw picks, unless a step on the way leaves its word. -/
def waitWord? (minimum maximum : UInt64) (retry : UInt32) (draw : UInt64) : Option UInt64 :=
  let ceiling := ceilingWord minimum maximum retry
  let floor := floorWord minimum maximum retry
  if floor < ceiling then
    (difference? ceiling floor).bind fun width =>
      (sum? width 1).bind fun choices => sum? floor (draw % choices)
  else some ceiling

section
variable (attempts : Nat) (minimum maximum : UInt64) (retry : UInt32)

theorem toNat_ceilingWord : (ceilingWord minimum maximum retry).toNat =
    (RetryRules.of attempts minimum.toNat maximum.toNat).ceiling retry.toNat := by
  rw [ceilingWord, toNat_min, toNat_times, toNat_shifted?, toNat_max]
  rfl

theorem toNat_floorWord : (floorWord minimum maximum retry).toNat =
    (RetryRules.of attempts minimum.toNat maximum.toNat).floor retry.toNat := by
  rw [floorWord, toNat_min, toNat_max, UInt64.toNat_div, toNat_ceilingWord attempts]
  rfl

/-- Every step towards a wait stays within its word, and so the wait is the one of the formula: the shortest wait is
half of the longest one at least, so there are never as many waits to choose from as there are words. -/
theorem waitWord?_eq_some (draw : UInt64) : ∃ wait, waitWord? minimum maximum retry draw = some wait ∧
    wait.toNat = (RetryRules.of attempts minimum.toNat maximum.toNat).backoff retry.toNat draw.toNat := by
  have top := toNat_ceilingWord attempts minimum maximum retry
  have bottom := toNat_floorWord attempts minimum maximum retry
  have limit := toNat_le_max64 (ceilingWord minimum maximum retry)
  -- From here on it only counts which numbers the two words stand for.
  generalize RetryRules.of attempts minimum.toNat maximum.toNat = rules at top bottom ⊢
  unfold waitWord?
  generalize ceilingWord minimum maximum retry = ceiling at top limit ⊢
  generalize floorWord minimum maximum retry = floor at bottom ⊢
  have ordered := rules.floor_le_ceiling retry.toNat
  have half := rules.half_ceiling_le_floor retry.toNat
  obtain ⟨_, within⟩ := rules.backoff_bounds retry.toNat draw.toNat
  have apart : floor < ceiling ↔ rules.floor retry.toNat < rules.ceiling retry.toNat := by
    rw [UInt64.lt_iff_toNat_lt, top, bottom]
  by_cases choice : floor < ceiling
  · have gap := apart.1 choice
    obtain ⟨width, subtracted, spans⟩ := difference?_eq_some (a := ceiling) (b := floor) (by omega)
    rw [top, bottom] at spans
    -- Counting one more choice than the width would leave the word if every word could be picked.
    have one : (1 : UInt64).toNat = 1 := UInt64.toNat_one
    have wide : 2 ≤ max64 := by decide
    have room : width.toNat + (1 : UInt64).toNat ≤ max64 := by omega
    obtain ⟨choices, counted, many⟩ := sum?_eq_some room
    have picked : floor.toNat + (draw % choices).toNat = rules.backoff retry.toNat draw.toNat := by
      rw [UInt64.toNat_mod, many, one, spans, bottom, RetryRules.backoff]
    obtain ⟨wait, added, sum⟩ := sum?_eq_some (a := floor) (b := draw % choices) (by omega)
    refine ⟨wait, ?_, sum.trans picked⟩
    rw [if_pos choice, subtracted, Option.bind_some, counted, Option.bind_some, added]
  · have gap := mt apart.2 choice
    have settled : rules.floor retry.toNat = rules.ceiling retry.toNat := by omega
    refine ⟨ceiling, if_neg choice, ?_⟩
    rw [top, RetryRules.backoff_of_settled settled]

end

/-! ### Bounds -/

/-- The bounds on the waits before a retry, for a least and a greatest wait that are configured in either order. -/
structure RetryRules.Bounded (minimum maximum : UInt64) (rules : RetryRules) (retry : UInt32) : Prop where
  /-- Without a step that leaves its word, 64 bits give the same bounds and waits as the integers. -/
  words : (ceilingWord minimum maximum retry).toNat = rules.ceiling retry.toNat ∧
    (floorWord minimum maximum retry).toNat = rules.floor retry.toNat ∧
    ∀ draw, ∃ wait, waitWord? minimum maximum retry draw = some wait ∧
      wait.toNat = rules.backoff retry.toNat draw.toNat
  ceiling : rules.ceiling retry.toNat =
    min (minimum.toNat * 2 ^ retry.toNat) (max minimum.toNat maximum.toNat)
  picked : ∀ wait, (∃ draw, rules.backoff retry.toNat draw = wait) ↔
    rules.floor retry.toNat ≤ wait ∧ wait ≤ rules.ceiling retry.toNat
  ordered : minimum.toNat ≤ rules.floor retry.toNat ∧ rules.floor retry.toNat ≤ rules.ceiling retry.toNat ∧
    rules.ceiling retry.toNat ≤ max minimum.toNat maximum.toNat
  half : rules.ceiling retry.toNat / 2 ≤ rules.floor retry.toNat
  growing : ∀ later : UInt32, retry ≤ later →
    rules.floor retry.toNat ≤ rules.floor later.toNat ∧ rules.ceiling retry.toNat ≤ rules.ceiling later.toNat
  settled : rules.floor retry.toNat = rules.ceiling retry.toNat →
    ∀ draw failure, failure.requestedWait = none →
      rules.delay retry.toNat draw failure = Span.ofMillis (rules.ceiling retry.toNat)
  fits : ∀ draw, Span.ofMillis (rules.backoff retry.toNat draw) ≤ Span.longest

/-- For every number of attempts and every least and greatest wait of 64 bits that an invoker is configured with, in
order or not, and before every retry that 32 bits can count.

The longest wait is the least one, doubled for every retry before it, up to the greater of the two, and the shortest
one is half of that or the least, whichever is longer. The waits that can be picked are those between, and neither end
ever decreases from one retry to a later one. Where the two are the same, the call waits for exactly that time, unless
the service has asked for another. -/
theorem Invoker.waits_bounded (breaker : Config.Breaker) (settings : Config.Retry) (retry : UInt32) :
    (Invoker.of breaker settings).retry.Bounded settings.waitMinMillis settings.waitMaxMillis retry := by
  obtain ⟨attempts, minimum, maximum, _⟩ := settings
  have greater : (RetryRules.of attempts.toNat minimum.toNat maximum.toNat).maximum = max minimum.toNat maximum.toNat :=
    Nat.max_comm _ _
  have small : (RetryRules.of attempts.toNat minimum.toNat maximum.toNat).maximum ≤ max64 :=
    Nat.max_le.2 ⟨toNat_le_max64 maximum, toNat_le_max64 minimum⟩
  refine
    { words := ⟨toNat_ceilingWord _ minimum maximum retry, toNat_floorWord _ minimum maximum retry,
        waitWord?_eq_some _ minimum maximum retry⟩
      ceiling := ?ceiling
      picked := RetryRules.exists_backoff_iff _ retry.toNat
      ordered := ⟨RetryRules.minimum_le_floor small _, RetryRules.floor_le_ceiling _ _, ?least⟩
      half := RetryRules.half_ceiling_le_floor _ _
      growing := fun later after =>
        have order := UInt32.le_iff_toNat_le.1 after
        ⟨RetryRules.floor_mono small order, RetryRules.ceiling_mono small order⟩
      settled := ?settled
      fits := ?fits }
  case ceiling =>
    rw [← greater]
    exact RetryRules.ceiling_eq small retry.toNat
  case least =>
    rw [← greater]
    exact RetryRules.ceiling_le_maximum _ _
  case settled =>
    intro same draw failure nothing
    rw [RetryRules.delay, nothing, RetryRules.backoff_of_settled same]
  case fits =>
    intro draw
    have within := (RetryRules.backoff_bounds (.of attempts.toNat minimum.toNat maximum.toNat) retry.toNat draw).2
    have below := Nat.le_trans within (Nat.le_trans (RetryRules.ceiling_le_maximum _ _) small)
    exact Nat.le_trans (Nat.mul_le_mul_right _ below) (by decide)

/-- Bounds in the wrong order, and more retries than a word has places. -/
example : (Invoker.of {} { waitMinMillis := 1000, waitMaxMillis := 10 }).retry.ceiling 70 = 1000 := by decide

end Invocation

end HostControl
