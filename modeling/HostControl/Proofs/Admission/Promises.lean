/-
Module: HostControl.Proofs.Admission.Promises
Purpose: What a decision tells besides yes and no comes true. The tokens that a bucket has left are the takes that
  it still admits at that instant, and the seconds to wait are the fewest after which it admits one. The shared
  counter has as many requests left as its next counts are admitted, and makes wait until the next minute.
Main exports: Bucket.tokens, countWithin_replicate, secondsToWait_le_iff, Bucket.Honours, Controller.Honours,
  decisions_come_true
-/
import HostControl.Proofs.Admission.Counter
import HostControl.Proofs.Admission.Take

namespace HostControl.Admission

/-! ### The decision of a bucket -/

/-- A wait is over after the seconds told, and not a second before. -/
theorem secondsToWait_le_iff {wait : Span} (some_wait : 0 < wait) (n : Nat) :
    secondsToWait wait ≤ n ↔ wait ≤ Span.ofSeconds n := by
  have started : (wait + (Span.second - 1)) / Span.second ≤ n ↔ wait ≤ n * Span.second := by
    rw [Nat.div_le_iff_le_mul_add_pred (by decide), Nat.mul_comm]
    exact Nat.add_le_add_iff_right
  have whole : 1 ≤ (wait + (Span.second - 1)) / Span.second := by
    apply (Nat.le_div_iff_mul_le (by decide)).2
    rw [Nat.one_mul, Span.second] at *
    unfold Span at *
    omega
  rw [secondsToWait, Nat.max_eq_left whole, started, Span.ofSeconds]

namespace Bucket

variable {b next : Bucket} {now full : Span} {taking : Taking}

/-- The tokens of a bucket that will be full at some time. -/
def tokens (now full : Span) (b : Bucket) : Nat :=
  (now - b.made + b.quota.interval + b.quota.tolerance - full) / b.quota.interval

/-- Where there is a token, putting the time at which the bucket is full off by an interval takes one. -/
theorem tokens_of_ready (positive : 0 < b.quota.interval)
    (ready : full ≤ now - b.made + b.quota.tolerance) :
    b.tokens now full = b.tokens now (full + b.quota.interval) + 1 := by
  have more : now - b.made + b.quota.interval + b.quota.tolerance - full =
      now - b.made + b.quota.interval + b.quota.tolerance - (full + b.quota.interval) + b.quota.interval := by
    unfold Span at *
    omega
  rw [tokens, more, Nat.add_div_right _ positive, tokens]

theorem tokens_of_empty (positive : 0 < b.quota.interval)
    (empty : now - b.made + b.quota.tolerance < full) : b.tokens now full = 0 := by
  apply Nat.div_eq_of_lt
  unfold Span at *
  omega

theorem tokens_after (b : Bucket) (now full : Span) (times : List Span) :
    (b.after times).tokens now full = b.tokens now full := by
  rw [tokens, tokens, after_made, after_quota]

/-- Of takes at one instant as many are admitted as the bucket has tokens. -/
theorem countWithin_replicate (slow : b.quota.rate ≤ Span.second) (fits : b.Fits now)
    (stored : b.fullAt = some full) (filling : now - b.made ≤ full) (n : Nat) :
    b.countWithin now 0 (List.replicate n now) = min n (b.tokens now full) := by
  have positive := Quota.interval_pos slow
  induction n generalizing b full with
  | zero => exact (Nat.zero_min _).symm
  | succ n ih =>
    have here : now ≤ now ∧ now ≤ now + 0 := ⟨Nat.le_refl _, Nat.le_refl _⟩
    have slow_after : (b.after [now]).quota.rate ≤ Span.second := by rwa [after_quota]
    have fits_after : (b.after [now]).Fits now := by rwa [Fits, after_made, after_quota]
    have filling_after : now - (b.after [now]).made ≤ full := by rwa [after_made]
    have ready_iff : b.Ready now ↔ full ≤ now - b.made + b.quota.tolerance := by
      rw [Ready, due, stored, Option.getD_some]
    rw [List.replicate_succ', countWithin_append]
    cases admitted : b.admits now with
    | true =>
      have ready := ready_iff.1 ((admits_iff slow).1 admitted).1
      have first : b.countWithin now 0 [now] = 1 := by
        rw [countWithin, countWithin, after, admitted, if_pos ⟨rfl, here⟩]
      have left : (b.after [now]).fullAt = some (full + b.quota.interval) := by
        rw [@after_of_admits b now [] admitted, after, spent, due, stored, Option.getD_some,
          Nat.max_eq_left filling]
      have others := ih slow_after fits_after left
        (Nat.le_trans filling_after (Nat.le_add_right _ _)) (by rwa [after_quota])
      rw [first, tokens_of_ready positive ready, others, tokens_after]
      omega
    | false =>
      have empty : now - b.made + b.quota.tolerance < full := by
        apply Nat.lt_of_not_le
        intro near
        rw [(admits_iff slow).2 ⟨ready_iff.2 near, fits⟩] at admitted
        cases admitted
      have first : b.countWithin now 0 [now] = 0 := by
        rw [countWithin, countWithin, after, admitted]
        rfl
      have kept : (b.after [now]).fullAt = some full := by
        rwa [@after_of_refused b now [] admitted, after]
      have others := ih slow_after fits_after kept filling_after (by rwa [after_quota])
      rw [first, others, tokens_after, tokens_of_empty positive empty, Nat.min_zero, Nat.min_zero]

/-- A bucket keeps what a decision of a time tells. If it was for the request, then of any number of takes at that
instant as many are admitted as it says are left. If it was against it, then a take some seconds later, with
none in between, is admitted from the seconds on that it says to wait, as long as its sums fit into words. -/
structure Honours (now : Span) (b : Bucket) (d : Decision) : Prop where
  remaining : d.allowed = true → ∀ n, b.countWithin now 0 (List.replicate n now) = min n d.remaining
  retry : d.allowed = false → 1 ≤ d.retryAfterSeconds ∧ ∀ n,
    (b.admits (now + Span.ofSeconds n) = true ↔
      d.retryAfterSeconds ≤ n ∧ b.Fits (now + Span.ofSeconds n))

/-- What a take leaves keeps what its decision tells. -/
theorem honours_of_take (slow : b.quota.rate ≤ Span.second) (begun : b.made ≤ now)
    (taken : b.take now = .ok (taking, next)) (scope : String) (limit : Nat) :
    next.Honours now (.ofTaking scope limit taking) := by
  cases taking with
  | admitted left =>
    obtain ⟨ready, fits, rfl, rfl⟩ := take_admitted taken
    constructor
    case retry =>
      intro refused
      cases refused
    intro _ n
    have filling : now - b.made ≤ max (b.due now) (now - b.made) + b.quota.interval :=
      Nat.le_trans (Nat.le_max_right _ _) (Nat.le_add_right _ _)
    have count := @countWithin_replicate (b.spent now) now _ slow fits rfl filling n
    have left : (b.spent now).tokens now (max (b.due now) (now - b.made) + b.quota.interval) =
        (now - b.made + b.quota.tolerance - max (b.due now) (now - b.made)) / b.quota.interval := by
      rw [tokens, spent, Nat.add_right_comm, Nat.add_sub_add_right]
    rw [count, left, Decision.ofTaking]
  | throttled wait =>
    obtain ⟨rfl, full, stored, empty, rfl⟩ := take_throttled taken
    have some_wait : 0 < full - next.quota.tolerance - (now - next.made) := by
      unfold Span at *
      omega
    constructor
    case remaining =>
      intro allowed
      cases allowed
    refine fun _ => ⟨Nat.le_max_right _ _, fun n => ?_⟩
    have ready_iff : next.Ready (now + Span.ofSeconds n) ↔
        full - next.quota.tolerance - (now - next.made) ≤ Span.ofSeconds n := by
      rw [Ready, due, stored, Option.getD_some]
      unfold Span at *
      omega
    rw [admits_iff slow, Decision.ofTaking, secondsToWait_le_iff some_wait, ready_iff]

end Bucket

/-! ### The decision of the shared counter -/

theorem seconds_ofNanos_add (x : Int) (n : Nat) :
    (Instant.ofNanos (x + n * (Span.second : Int))).seconds = (Instant.ofNanos x).seconds + n := by
  have second_ne : (Span.second : Int) ≠ 0 := by decide
  rw [Instant.ofNanos, Instant.ofNanos]
  exact Int.add_mul_ediv_right _ _ second_ne

/-- The clock's seconds move on with it. -/
theorem seconds_forward (clock : Clock) (n : Nat) :
    (clock.forward (Span.ofSeconds n)).now.seconds = clock.now.seconds + n := by
  have moved : (clock.forward (Span.ofSeconds n)).now =
      .ofNanos (clock.origin.totalNanos + (clock.elapsed + n * (Span.second : Int))) := by
    rw [Clock.now, Clock.timeAt, Clock.forward, Instant.after, Span.ofSeconds, Int.natCast_add,
      Int.natCast_mul]
  rw [moved, ← Int.add_assoc, seconds_ofNanos_add, Clock.now, Clock.timeAt, Instant.after]

/-- Two times of day have one key where they lie in one minute. -/
theorem windowKey_eq_iff {tier : Tier} {now later : Instant} :
    windowKey tier later = windowKey tier now ↔ minuteOf later = minuteOf now := by
  constructor
  · intro same
    rw [windowKey_eq, windowKey_eq] at same
    exact congrArg Window.minute (key_injective same)
  · intro same
    rw [windowKey, windowKey, same]

namespace Controller

variable {tier : Tier} {clock : Clock} {answers : Cache.Answers} {count : Int} {c : Controller}

/-- Limiters keep what a decision by a count tells. Of the counts that follow under the key of that minute as many
are admitted as it says are left. If it was against the request, then a later key, that of a later minute, is
there from the seconds on that it says to wait. -/
structure Honours (tier : Tier) (clock : Clock) (count : Int) (c : Controller) (d : Decision) : Prop where
  remaining : ∀ ctx (later : Clock) (answers : Cache.Answers) (k : Nat), 0 < k →
    windowKey tier later.now = windowKey tier clock.now →
    (answers.increment (windowKey tier later.now)).2 = .ok (count + k) →
    ∃ ruling, c.check ctx tier later answers = .ok (ruling, c) ∧
      (ruling.decision.allowed = true ↔ k ≤ d.remaining)
  retry : d.allowed = false → 1 ≤ d.retryAfterSeconds ∧ d.retryAfterSeconds ≤ 60 ∧ ∀ n,
    (windowKey tier (clock.forward (Span.ofSeconds n)).now ≠ windowKey tier clock.now ∧
      minuteOf clock.now < minuteOf (clock.forward (Span.ofSeconds n)).now ↔ d.retryAfterSeconds ≤ n)

theorem honours_of_count (counted : c.distributed = true) (positive : 0 < count) :
    c.Honours tier clock count
      (.ofCount tier.label (c.bucket tier).quota.rate clock.now count) := by
  have counts : c.CountsAt fun tier => (c.bucket tier).quota.rate := ⟨counted, fun _ => rfl⟩
  refine ⟨?_, ?_⟩
  · intro ctx later answers k further _ answered
    obtain ⟨ruling, checked, decided, _⟩ := check_of_count ctx counts answered
    refine ⟨ruling, checked, ?_⟩
    rw [decided]
    simp only [Decision.ofCount, decide_eq_true_eq]
    omega
  · intro refused
    have wait : (Decision.ofCount tier.label (c.bucket tier).quota.rate clock.now count).retryAfterSeconds =
        (60 - clock.now.seconds % 60).toNat := by
      simp only [Decision.ofCount] at refused ⊢
      rw [refused, if_neg Bool.false_ne_true]
    rw [wait]
    refine ⟨by omega, by omega, fun n => ?_⟩
    rw [ne_eq, windowKey_eq_iff, minuteOf, minuteOf, seconds_forward]
    omega

end Controller

/-! ### Both -/

/-- What decisions tell besides yes and no comes true. Whatever takes came before, the tokens that an admitted
take is told are left are the takes that are still admitted at that instant, and the seconds that a refused one
is told to wait are the fewest after which a take is admitted. A check that is told a count is decided by it at
every time of day, and the requests left are the counts that are still admitted, and the seconds to wait are
the fewest to a later key. -/
theorem decisions_come_true :
    (∀ (b : Bucket) past now scope limit taking next, b.quota.rate ≤ Span.second → b.made ≤ now →
      (b.after past).take now = .ok (taking, next) → next.Honours now (.ofTaking scope limit taking)) ∧
    ∀ (c : Controller) ctx tier (clock : Clock) (answers : Cache.Answers) count, c.distributed = true →
      (answers.increment (windowKey tier clock.now)).2 = .ok count → 0 < count →
      ∃ ruling, c.check ctx tier clock answers = .ok (ruling, c) ∧
        c.Honours tier clock count ruling.decision := by
  constructor
  · intro b past now scope limit taking next slow begun taken
    exact Bucket.honours_of_take (by rwa [Bucket.after_quota]) (by rwa [Bucket.after_made]) taken scope limit
  · intro c ctx tier clock answers count counted answered positive
    have counts : c.CountsAt fun tier => (c.bucket tier).quota.rate := ⟨counted, fun _ => rfl⟩
    obtain ⟨ruling, checked, decided, _⟩ := Controller.check_of_count ctx counts answered
    refine ⟨ruling, checked, ?_⟩
    rw [decided]
    exact Controller.honours_of_count counted positive

/-- A bucket of three tokens that come back in half a second each. -/
def triple : Bucket where
  quota := Quota.of 2 3
  made := 0

/-- A cache that has counted one request more than a rate of one a second allows. -/
def crowded : Cache.Answers := { Cache.Answers.absent with increment := fun _ => (none, .ok 61) }

/-- A second and a half before 1970. -/
def newYearsEve : Clock where
  origin := .ofNanos (-1500000000)

/-- After its second token a bucket of three has one, after its third one it has the next a second later; and
two seconds before a minute is over, by its whole seconds, a count beyond the limit waits two seconds. -/
theorem decisions_come_true_newYearsEve :
    (∃ next, (triple.after [0]).take 0 = .ok (.admitted 1, next) ∧
      ∀ n, next.countWithin 0 0 (List.replicate n 0) = min n 1) ∧
    (∃ next, (triple.after [0, 0, 0]).take 0 = .ok (.throttled 500000000, next) ∧
      ∀ n, next.admits (0 + Span.ofSeconds n) = true ↔ 1 ≤ n ∧ next.Fits (0 + Span.ofSeconds n)) ∧
    ∃ ruling, (Controller.of { globalRate := 1 } true 0).check { actor := "ops", correlationId := "c-1" } .global
        newYearsEve crowded = .ok (ruling, .of { globalRate := 1 } true 0) ∧
      ∀ n, (windowKey .global (newYearsEve.forward (Span.ofSeconds n)).now ≠ windowKey .global newYearsEve.now ∧
        minuteOf newYearsEve.now < minuteOf (newYearsEve.forward (Span.ofSeconds n)).now ↔ 2 ≤ n) := by
  obtain ⟨own, shared⟩ := decisions_come_true
  have slow : triple.quota.rate ≤ Span.second := by decide
  have begun : triple.made ≤ 0 := Nat.le_refl 0
  refine ⟨⟨{ triple with fullAt := some 1500000000 }, rfl, ?_⟩,
    ⟨{ triple with fullAt := some 2000000000 }, rfl, ?_⟩, ?_⟩
  · exact (own triple [0] 0 "global" 3 (.admitted 1) _ slow begun rfl).remaining rfl
  · exact ((own triple [0, 0, 0] 0 "global" 3 (.throttled 500000000) _ slow begun rfl).retry rfl).2
  · obtain ⟨ruling, checked, honours⟩ := shared (.of { globalRate := 1 } true 0)
      { actor := "ops", correlationId := "c-1" } .global newYearsEve crowded 61 rfl rfl (by decide)
    have told : ((Controller.of { globalRate := 1 } true 0).check { actor := "ops", correlationId := "c-1" }
        .global newYearsEve crowded).map (·.1.decision) = .ok ⟨false, "global", 60, 0, 2⟩ := rfl
    rw [checked] at told
    have decided : ruling.decision = ⟨false, "global", 60, 0, 2⟩ := Except.ok.inj told
    rw [decided] at honours
    exact ⟨ruling, checked, (honours.retry rfl).2.2⟩

end HostControl.Admission
