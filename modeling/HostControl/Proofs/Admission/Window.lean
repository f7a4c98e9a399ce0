/-
Module: HostControl.Proofs.Admission.Window
Purpose: How many takes a token bucket admits in a window of time: its burst, what comes back in the window,
  and one more. The one more is there when takes have been made before and the window finds the bucket full,
  or short of less than a token; a bucket that is new has only its burst.
Main exports: Bucket.after, Bucket.countWithin, take_ends, take_of_room, level_after, exists_first,
  admitted_in_window, single_admits_two
-/
import HostControl.Admission.Bucket

namespace HostControl.Admission

namespace Bucket

/-! ### Takes one after another -/

/-- Whether a take at a time is admitted. -/
def admits (now : Span) (b : Bucket) : Bool :=
  match b.take now with
  | .ok (.admitted _, _) => true
  | _ => false

/-- The bucket after takes at given times, the latest first. A take whose arithmetic has no result leaves it
as it was. -/
def after (b : Bucket) : List Span → Bucket
  | [] => b
  | now :: past =>
      match (b.after past).take now with
      | .ok (_, next) => next
      | .error _ => b.after past

/-- How many of the takes at given times, the latest first, are admitted in a window that has a start and a
length. Both ends belong to the window. -/
def countWithin (start length : Span) (b : Bucket) : List Span → Nat
  | [] => 0
  | now :: past =>
      b.countWithin start length past +
        if (b.after past).admits now ∧ start ≤ now ∧ now ≤ start + length then 1 else 0

variable {b : Bucket} {now start length : Span}

/-- When the bucket is full again, as a take at a time finds it. Before the first take that is one interval
away. -/
def due (now : Span) (b : Bucket) : Span := b.fullAt.getD (now - b.made + b.quota.interval)

/-- The bucket with one token less. -/
def spent (now : Span) (b : Bucket) : Bucket :=
  { b with fullAt := some (max (b.due now) (now - b.made) + b.quota.interval) }

/-! ### One take -/

theorem sum_ok {m n : Nat} (room : m + n ≤ Word.max64) : sum m n = .ok (m + n) := if_pos room

theorem sum_error {m n : Nat} (wide : ¬ m + n ≤ Word.max64) : sum m n = .error .overflow := if_neg wide

/-- What is left is known where the sums fit into words and an interval is not nothing. -/
theorem remaining_ok {q : Quota} {age : Nat} (positive : 0 < q.interval)
    (room : age + q.interval + q.tolerance ≤ Word.max64) (full : Span) :
    ∃ left, remaining q age full = .ok left := by
  have later : sum age q.interval = .ok (age + q.interval) :=
    sum_ok (Nat.le_trans (Nat.le_add_right _ _) room)
  refine ⟨min (age + q.interval + q.tolerance - full) q.tolerance / q.interval, ?_⟩
  simp only [remaining, later, sum_ok room, bind, Except.bind]
  exact if_neg (Nat.ne_of_gt positive)

/-- A take in terms of the time at which the bucket is full again, where that time fits into a word. -/
theorem take_eq (room : b.fullAt = none → now - b.made + b.quota.interval ≤ Word.max64) :
    b.take now =
      if now - b.made < b.due now - b.quota.tolerance then
        .ok (.throttled (b.due now - b.quota.tolerance - (now - b.made)), b)
      else do
        let next ← sum (max (b.due now) (now - b.made)) b.quota.interval
        let left ← remaining b.quota (now - b.made) next
        return (.admitted left, { b with fullAt := some next }) := by
  unfold take takeAt
  cases known : b.fullAt with
  | some full =>
    simp only [due, known, Option.getD_some, bind, Except.bind]
    rfl
  | none =>
    simp only [due, known, sum_ok (room known), Option.getD_none, bind, Except.bind]
    rfl

/-- A take has no result, or leaves the bucket as it was, or is admitted and spends a token. -/
theorem take_ends (now : Span) (b : Bucket) :
    (∃ fault, b.take now = .error fault) ∨ (∃ wait, b.take now = .ok (.throttled wait, b)) ∨
      (∃ left, b.take now = .ok (.admitted left, b.spent now)) ∧
        b.due now ≤ now - b.made + b.quota.tolerance := by
  by_cases room : b.fullAt = none → now - b.made + b.quota.interval ≤ Word.max64
  · rw [take_eq room]
    split
    · exact .inr (.inl ⟨_, rfl⟩)
    · next reached =>
      have near : b.due now ≤ now - b.made + b.quota.tolerance := by
        unfold Span at *
        omega
      by_cases fits : max (b.due now) (now - b.made) + b.quota.interval ≤ Word.max64
      · simp only [sum_ok fits, bind, Except.bind]
        cases remaining b.quota (now - b.made) (max (b.due now) (now - b.made) + b.quota.interval) with
        | error fault => exact .inl ⟨fault, rfl⟩
        | ok left => exact .inr (.inr ⟨⟨left, rfl⟩, near⟩)
      · exact .inl ⟨.overflow, by simp only [sum_error fits, bind, Except.bind]⟩
  · obtain ⟨unused, wide⟩ := Classical.not_imp.1 room
    exact .inl ⟨.overflow, by simp only [take, takeAt, unused, sum_error wide, bind, Except.bind]⟩

/-- Where the sums fit into words, a take is admitted if the bucket is not too far from full. -/
theorem take_of_room (positive : 0 < b.quota.interval)
    (room : now - b.made + b.quota.interval + b.quota.tolerance ≤ Word.max64)
    (near : b.due now ≤ now - b.made + b.quota.tolerance) :
    ∃ left, b.take now = .ok (.admitted left, b.spent now) := by
  have fits : max (b.due now) (now - b.made) + b.quota.interval ≤ Word.max64 := by
    unfold Span at *
    omega
  obtain ⟨left, known⟩ := remaining_ok positive room (max (b.due now) (now - b.made) + b.quota.interval)
  refine ⟨left, ?_⟩
  rw [take_eq fun _ => Nat.le_trans (Nat.le_add_right _ _) room, if_neg]
  · simp only [sum_ok fits, known, bind, Except.bind]
    rfl
  · unfold Span at *
    omega

/-- An admitted take is one that spends a token of a bucket that is not too far from full. -/
theorem take_of_admits (admitted : b.admits now = true) :
    (∃ left, b.take now = .ok (.admitted left, b.spent now)) ∧
      b.due now ≤ now - b.made + b.quota.tolerance := by
  unfold admits at admitted
  rcases take_ends now b with ⟨fault, failed⟩ | ⟨wait, throttled⟩ | spent
  · simp [failed] at admitted
  · simp [throttled] at admitted
  · exact spent

/-- A take that is not admitted leaves the bucket as it was. -/
theorem after_of_refused {past : List Span} (refused : (b.after past).admits now = false) :
    b.after (now :: past) = b.after past := by
  unfold admits at refused
  rw [after]
  rcases take_ends now (b.after past) with ⟨fault, failed⟩ | ⟨wait, throttled⟩ | ⟨⟨left, taken⟩, _⟩
  · rw [failed]
  · rw [throttled]
  · simp [taken] at refused

theorem after_of_admits {past : List Span} (admitted : (b.after past).admits now = true) :
    b.after (now :: past) = (b.after past).spent now := by
  obtain ⟨⟨left, taken⟩, _⟩ := take_of_admits admitted
  rw [after, taken]

/-- Takes change neither the quota of a bucket nor the time at which it was made. -/
theorem after_keeps (b : Bucket) (times : List Span) :
    (b.after times).quota = b.quota ∧ (b.after times).made = b.made := by
  induction times with
  | nil => exact ⟨rfl, rfl⟩
  | cons now past ih =>
    cases admitted : (b.after past).admits now with
    | false => rwa [after_of_refused admitted]
    | true => rwa [after_of_admits admitted]

@[simp] theorem after_quota (b : Bucket) (times : List Span) : (b.after times).quota = b.quota :=
  (b.after_keeps times).1

@[simp] theorem after_made (b : Bucket) (times : List Span) : (b.after times).made = b.made :=
  (b.after_keeps times).2

theorem after_append (b : Bucket) (later earlier : List Span) :
    b.after (later ++ earlier) = (b.after earlier).after later := by
  induction later with
  | nil => rfl
  | cons now past ih => rw [List.cons_append, after, after, ih]

theorem countWithin_append (b : Bucket) (later earlier : List Span) :
    b.countWithin start length (later ++ earlier) =
      b.countWithin start length earlier + (b.after earlier).countWithin start length later := by
  induction later with
  | nil => rfl
  | cons now past ih => rw [List.cons_append, countWithin, countWithin, ih, after_append, Nat.add_assoc]

/-! ### Takes in a window -/

/-- Each take that a window admits puts the time at which the bucket is full off by an interval, and the
last of them was admitted when that time was not too far away. -/
theorem level_after {full : Span} (known : b.fullAt = some full) (later : List Span) :
    (∃ present, (b.after later).fullAt = some present ∧
      full + b.countWithin start length later * b.quota.interval ≤ present) ∧
      (b.countWithin start length later = 0 ∨
        full + (b.countWithin start length later - 1) * b.quota.interval ≤
          start - b.made + length + b.quota.tolerance) := by
  induction later with
  | nil => exact ⟨⟨full, known, by simp [countWithin]⟩, .inl rfl⟩
  | cons now past ih =>
    obtain ⟨⟨present, stored, risen⟩, bound⟩ := ih
    cases admitted : (b.after past).admits now with
    | false =>
      have same : b.countWithin start length (now :: past) = b.countWithin start length past := by
        simp [countWithin, admitted]
      rw [after_of_refused admitted, same]
      exact ⟨⟨present, stored, risen⟩, bound⟩
    | true =>
      obtain ⟨_, near⟩ := take_of_admits admitted
      have due_eq : (b.after past).due now = present := by rw [due, stored, Option.getD_some]
      rw [due_eq, after_quota, after_made] at near
      rw [after_of_admits admitted, spent, due_eq, after_quota, after_made]
      by_cases within : start ≤ now ∧ now ≤ start + length
      · have more : b.countWithin start length (now :: past) = b.countWithin start length past + 1 := by
          simp [countWithin, admitted, within]
        rw [more, Nat.add_mul, Nat.add_sub_cancel]
        unfold Span at *
        exact ⟨⟨_, rfl, by omega⟩, .inr (by omega)⟩
      · have same : b.countWithin start length (now :: past) = b.countWithin start length past := by
          simp [countWithin, within]
        rw [same]
        unfold Span at *
        exact ⟨⟨_, rfl, by omega⟩, bound⟩

/-- Of the takes that a window admits there is a first one. -/
theorem exists_first {times : List Span} (some_admitted : b.countWithin start length times ≠ 0) :
    ∃ later first earlier, times = later ++ first :: earlier ∧
      b.countWithin start length earlier = 0 ∧ (b.after earlier).admits first = true ∧
      start ≤ first ∧ first ≤ start + length := by
  induction times with
  | nil => exact absurd rfl some_admitted
  | cons now past ih =>
    by_cases before : b.countWithin start length past = 0
    · refine ⟨[], now, past, rfl, before, ?_⟩
      rw [countWithin, before, Nat.zero_add] at some_admitted
      exact Classical.byContradiction fun other => some_admitted (if_neg other)
    · obtain ⟨later, first, earlier, rfl, rest⟩ := ih before
      exact ⟨now :: later, first, earlier, rfl, rest⟩

/-- So many intervals fit into a length and a burst. -/
theorem le_burst_add_div {count interval burst : Nat} (positive : 0 < interval)
    (fits : count * interval ≤ length + interval * burst) : count ≤ burst + length / interval := by
  have bound := (Nat.le_div_iff_mul_le positive).2 fits
  rw [Nat.add_mul_div_left length burst positive] at bound
  omega

/-- The first take that a window admits leaves room for the burst and for what comes back, and for one less
where the bucket was a whole interval away from full. -/
theorem countWithin_after_first {later earlier : List Span} {first : Span} (positive : 0 < b.quota.interval)
    (tolerance : b.quota.tolerance = b.quota.interval * b.quota.burst)
    (admitted : (b.after earlier).admits first = true) (begun : start ≤ first) :
    (b.after (first :: earlier)).countWithin start length later ≤
        b.quota.burst + length / b.quota.interval ∧
      (first - b.made + b.quota.interval ≤ (b.after earlier).due first →
        (b.after (first :: earlier)).countWithin start length later + 1 ≤
          b.quota.burst + length / b.quota.interval) := by
  rw [after_of_admits admitted]
  obtain ⟨_, bound⟩ :=
    @level_after ((b.after earlier).spent first) start length _ rfl later
  simp only [spent, after_quota, after_made, tolerance] at bound
  rw [spent, after_quota, after_made]
  generalize countWithin start length _ later = count at bound ⊢
  cases count with
  | zero => exact ⟨Nat.zero_le _, fun _ => Nat.le_trans b.quota.burst_pos (Nat.le_add_right _ _)⟩
  | succ others =>
    replace bound := bound.resolve_left (Nat.succ_ne_zero others)
    rw [Nat.add_sub_cancel] at bound
    refine ⟨le_burst_add_div positive ?_, fun short => le_burst_add_div positive ?_⟩
    · rw [Nat.add_mul]
      unfold Span at *
      omega
    · rw [Nat.add_mul, Nat.add_mul]
      unfold Span at *
      omega

/-- A window admits the burst, what comes back in it, and one take more at most; the one more only where its
first take finds a bucket that is short of less than a token. -/
theorem countWithin_bound (slow : b.quota.rate ≤ Span.second) (times : List Span) (start length : Span) :
    b.countWithin start length times ≤ b.quota.burst + 1 + length / b.quota.interval ∧
      (b.quota.burst + length / b.quota.interval < b.countWithin start length times →
        ∃ later first earlier, times = later ++ first :: earlier ∧
          b.countWithin start length earlier = 0 ∧ (b.after earlier).admits first = true ∧
          start ≤ first ∧ first ≤ start + length ∧
          (b.after earlier).due first < first - b.made + b.quota.interval) := by
  by_cases none_admitted : b.countWithin start length times = 0
  · rw [none_admitted]
    exact ⟨Nat.zero_le _, nofun⟩
  · obtain ⟨later, first, earlier, rfl, before, admitted, begun, ended⟩ := exists_first none_admitted
    have split : b.countWithin start length (later ++ first :: earlier) =
        (b.after (first :: earlier)).countWithin start length later + 1 := by
      rw [countWithin_append, countWithin, before, if_pos ⟨admitted, begun, ended⟩]
      exact Nat.add_comm _ _
    obtain ⟨bound, short⟩ := @countWithin_after_first b start length later earlier first
      (Quota.interval_pos slow) (Quota.tolerance_eq slow) admitted begun
    rw [split]
    refine ⟨by omega, fun many => ⟨later, first, earlier, rfl, before, admitted, begun, ended, ?_⟩⟩
    exact Nat.lt_of_not_le fun far => absurd (short far) (Nat.not_le_of_lt many)

/-! ### The busiest window -/

/-- Takes, the latest first, of which a new bucket admits one more than its burst in one instant: one that
makes its time of being full known, then a burst and one more when it is full, then one in each interval. -/
def busiest (b : Bucket) : Nat → List Span
  | 0 => [b.made]
  | count + 1 => (b.made + max 2 (count + 2 - b.quota.burst) * b.quota.interval) :: b.busiest count

/-- A take that finds the bucket on its way to be full is admitted and puts that off by an interval. -/
theorem after_take {past : List Span} {full age : Nat} (positive : 0 < b.quota.interval)
    (stored : (b.after past).fullAt = some full) (filling : age ≤ full)
    (near : full ≤ age + b.quota.tolerance)
    (room : age + b.quota.interval + b.quota.tolerance ≤ Word.max64) :
    (b.after past).admits (b.made + age) = true ∧
      (b.after ((b.made + age) :: past)).fullAt = some (full + b.quota.interval) := by
  have due_eq : (b.after past).due (b.made + age) = full := by rw [due, stored, Option.getD_some]
  have age_eq : b.made + age - b.made = age := Nat.add_sub_cancel_left _ _
  have admitted : (b.after past).admits (b.made + age) = true := by
    obtain ⟨left, taken⟩ := @take_of_room (b.after past) (b.made + age) (by simpa using positive)
      (by simpa only [after_quota, after_made, age_eq] using room)
      (by simpa only [due_eq, after_quota, after_made, age_eq] using near)
    rw [admits, taken]
  refine ⟨admitted, ?_⟩
  rw [after_of_admits admitted, spent, due_eq, after_quota, after_made, age_eq, Nat.max_eq_left filling]

/-- After its first take a new bucket is two intervals away from full. -/
theorem after_first_take (slow : b.quota.rate ≤ Span.second) (unused : b.fullAt = none)
    (room : b.quota.interval + b.quota.tolerance ≤ Word.max64) :
    (b.after [b.made]).fullAt = some (2 * b.quota.interval) := by
  have due_eq : b.due b.made = b.quota.interval := by
    rw [due, unused, Option.getD_none, Nat.sub_self, Nat.zero_add]
  have near : b.quota.interval ≤ b.quota.tolerance := by
    rw [Quota.tolerance_eq slow]
    exact Nat.le_mul_of_pos_right _ b.quota.burst_pos
  obtain ⟨left, taken⟩ := @take_of_room b b.made (Quota.interval_pos slow)
    (by rwa [Nat.sub_self, Nat.zero_add]) (by rwa [due_eq, Nat.sub_self, Nat.zero_add])
  rw [after, after, taken]
  simp only [spent, due_eq, Nat.sub_self, Nat.max_eq_left (Nat.zero_le _), Nat.two_mul]

/-- Every one of the busiest takes but the first is admitted, and all of these lie in one window. -/
theorem countWithin_busiest (slow : b.quota.rate ≤ Span.second) (unused : b.fullAt = none) {m : Nat}
    (room : (b.quota.burst + m + 3) * b.quota.interval ≤ Word.max64) {count : Nat}
    (few : count ≤ b.quota.burst + 1 + m) :
    (b.after (b.busiest count)).fullAt = some ((count + 2) * b.quota.interval) ∧
      b.countWithin (b.made + 2 * b.quota.interval) (m * b.quota.interval) (b.busiest count) = count := by
  have positive := Quota.interval_pos slow
  have tolerance := Quota.tolerance_eq slow
  rw [Nat.mul_comm] at tolerance
  induction count with
  | zero =>
    have small : b.quota.interval + b.quota.tolerance ≤ Word.max64 := by
      simp only [tolerance, Nat.add_mul] at room ⊢
      unfold Span at *
      omega
    have early : ¬ b.made + 2 * b.quota.interval ≤ b.made := by
      unfold Span at *
      omega
    refine ⟨by rw [busiest, after_first_take slow unused small, Nat.zero_add], ?_⟩
    simp [busiest, countWithin, early]
  | succ count ih =>
    obtain ⟨stored, counted⟩ := ih (by omega)
    rw [busiest]
    generalize steps : max 2 (count + 2 - b.quota.burst) = step
    have early : 2 * b.quota.interval ≤ step * b.quota.interval := Nat.mul_le_mul_right _ (by omega)
    have late : step * b.quota.interval ≤ (m + 2) * b.quota.interval := Nat.mul_le_mul_right _ (by omega)
    have filling : step * b.quota.interval ≤ (count + 2) * b.quota.interval :=
      Nat.mul_le_mul_right _ (by omega)
    have near : (count + 2) * b.quota.interval ≤ (step + b.quota.burst) * b.quota.interval :=
      Nat.mul_le_mul_right _ (by omega)
    rw [Nat.add_mul step, ← tolerance] at near
    simp only [Nat.add_mul, ← tolerance] at room late
    obtain ⟨admitted, full⟩ := after_take positive stored filling near (by
      unfold Span at *
      omega)
    have within : b.made + 2 * b.quota.interval ≤ b.made + step * b.quota.interval ∧
        b.made + step * b.quota.interval ≤ b.made + 2 * b.quota.interval + m * b.quota.interval := by
      unfold Span at *
      omega
    refine ⟨?_, by rw [countWithin, counted, if_pos ⟨admitted, within⟩]⟩
    rw [full, ← Nat.succ_mul, Nat.succ_eq_add_one, Nat.add_right_comm]

theorem le_of_mem_busiest {count : Nat} {time : Span} (member : time ∈ b.busiest count) :
    time ≤ b.made + max 2 (count + 2 - b.quota.burst) * b.quota.interval := by
  induction count with
  | zero =>
    rw [List.mem_singleton.1 member]
    exact Nat.le_add_right _ _
  | succ count ih =>
    have grows : max 2 (count + 2 - b.quota.burst) ≤ max 2 (count + 1 + 2 - b.quota.burst) := by omega
    have later := Nat.add_le_add_left (Nat.mul_le_mul_right b.quota.interval grows) b.made
    rcases List.mem_cons.1 member with rfl | before
    · exact later
    · exact Nat.le_trans (ih before) later

/-- The busiest takes are made one after another. -/
theorem pairwise_busiest (b : Bucket) (count : Nat) :
    (b.busiest count).Pairwise fun later earlier => earlier ≤ later := by
  induction count with
  | zero => exact List.pairwise_singleton _ _
  | succ count ih => exact List.pairwise_cons.2 ⟨fun _ => le_of_mem_busiest, ih⟩

/-! ### The bound of a window -/

/-- A window admits the burst, what comes back in it, and one take more at most. The one more is only where
its first take finds a bucket that has been used before and is short of less than a token; and there it
comes to that in windows of every number of intervals. -/
theorem admitted_in_window (b : Bucket) (unused : b.fullAt = none) (slow : b.quota.rate ≤ Span.second) :
    (∀ times start length,
      b.countWithin start length times ≤ b.quota.burst + 1 + length / b.quota.interval ∧
        (b.quota.burst + length / b.quota.interval < b.countWithin start length times →
          ∃ later first earlier full, times = later ++ first :: earlier ∧
            b.countWithin start length earlier = 0 ∧ (b.after earlier).admits first = true ∧
            start ≤ first ∧ first ≤ start + length ∧
            (b.after earlier).fullAt = some full ∧ full < first - b.made + b.quota.interval)) ∧
      ∀ m, (b.quota.burst + m + 3) * b.quota.interval ≤ Word.max64 →
        (b.busiest (b.quota.burst + 1 + m)).Pairwise (fun later earlier => earlier ≤ later) ∧
          b.countWithin (b.made + 2 * b.quota.interval) (m * b.quota.interval)
            (b.busiest (b.quota.burst + 1 + m)) = b.quota.burst + 1 + m := by
  refine ⟨fun times start length => ?_, fun m room => ⟨b.pairwise_busiest _, ?_⟩⟩
  · obtain ⟨bound, used⟩ := countWithin_bound slow times start length
    refine ⟨bound, fun many => ?_⟩
    obtain ⟨later, first, earlier, parts, before, admitted, begun, ended, short⟩ := used many
    cases known : (b.after earlier).fullAt with
    | none =>
      rw [due, known, Option.getD_none, after_made, after_quota] at short
      exact absurd short (Nat.lt_irrefl _)
    | some full =>
      rw [due, known, Option.getD_some] at short
      exact ⟨later, first, earlier, full, parts, before, admitted, begun, ended, known, short⟩
  · exact (countWithin_busiest slow unused room (Nat.le_refl _)).2

/-- A bucket of one token that comes back within a second. -/
def single : Bucket where
  quota := Quota.of 1 1
  made := 0

/-- Takes, the latest first: one at once, and two more ten seconds later. -/
def pause : List Span := [Span.ofSeconds 10, Span.ofSeconds 10, 0]

theorem admitted_in_window_single :
    single.countWithin (Span.ofSeconds 10) 0 pause = 2 ∧
      (∃ later first earlier full, pause = later ++ first :: earlier ∧
        (single.after earlier).admits first = true ∧ (single.after earlier).fullAt = some full ∧
        full < first + Span.second) ∧
      single.countWithin (Span.ofSeconds 2) (Span.ofSeconds 1) (single.busiest 3) = 3 := by
  obtain ⟨bound, busiest⟩ := admitted_in_window single rfl (by decide)
  obtain ⟨most, used⟩ := bound pause (Span.ofSeconds 10) 0
  obtain ⟨later, first, earlier, full, parts, _, admitted, _, _, known, short⟩ :=
    used (by decide +kernel)
  refine ⟨Nat.le_antisymm most (by decide +kernel), ?_, ?_⟩
  · exact ⟨later, first, earlier, full, parts, admitted, known, short⟩
  · exact (busiest 1 (by decide)).2

/-- Two tokens of a bucket that holds one are taken at one instant, after it has rested. -/
theorem single_admits_two :
    ¬ ∀ (b : Bucket) (times : List Span) (start length : Span), b.fullAt = none →
      b.quota.rate ≤ Span.second → times.Pairwise (fun later earlier => earlier ≤ later) →
      b.countWithin start length times ≤ b.quota.burst + length / b.quota.interval := by
  intro claim
  have bound := claim single pause (Span.ofSeconds 10) 0 rfl (by decide) (by decide)
  exact absurd bound (by decide +kernel)

end Bucket

end HostControl.Admission
