/-
Module: HostControl.Proofs.Admission.Counter
Purpose: The counter that instances share for a tier and a minute: its key, the cache that keeps it, and
  what a controller makes of the count that it is told.
Main exports: Window, Window.key, key_injective, Store, Store.increment, Store.expire, check_of_count,
  check_keeps
-/
import HostControl.Admission.Controller
import HostControl.Proofs.Admission.Window
import Mathlib.Logic.Function.Basic

namespace HostControl.Admission

open Text

/-! ### Windows and their keys -/

/-- What is counted together: the requests of a tier in a minute of the time of day. -/
structure Window where
  tier : Tier
  minute : Int
deriving DecidableEq

/-- The nanoseconds of a minute. -/
def minuteNanos : Nat := 60 * Span.second

namespace Window

/-- The window of a request of a tier at a time of day. -/
def covering (tier : Tier) (now : Instant) : Window := ⟨tier, minuteOf now⟩

/-- The key of a window's counter. -/
def key (w : Window) : String := windowKey w.tier (.ofNanos (w.minute * minuteNanos))

end Window

theorem minuteOf_ofNanos (n : Int) : minuteOf (.ofNanos n) = n / minuteNanos := by
  simp only [minuteOf, Instant.ofNanos, minuteNanos, Span.second]
  omega

/-- A request is counted under the key of its window. -/
theorem windowKey_eq (tier : Tier) (now : Instant) : windowKey tier now = (Window.covering tier now).key := by
  have whole : minuteOf (.ofNanos (minuteOf now * minuteNanos)) = minuteOf now := by
    rw [minuteOf_ofNanos]
    exact Int.mul_ediv_cancel _ (by decide)
  rw [Window.key, windowKey, windowKey, Window.covering, whole]

/-- Different windows have different keys. -/
theorem key_injective {v w : Window} (same : v.key = w.key) : v = w := by
  obtain ⟨tier, minute⟩ := v
  obtain ⟨tier', minute'⟩ := w
  have whole : ∀ m : Int, m * minuteNanos / minuteNanos = m := fun m => Int.mul_ediv_cancel m (by decide)
  have texts := congrArg String.toList same
  simp only [Window.key, windowKey, minuteOf_ofNanos, whole, String.toList_append, String.toList_ofList,
    List.append_assoc, List.append_cancel_left_eq] at texts
  cases tier <;> cases tier' <;> simp [Tier.label] at texts
  · rw [signed_injective texts]
  · rw [signed_injective texts]

/-! ### The cache that keeps the counters -/

/-- A counter: where it stands, and when it ends if it does. -/
structure Counter where
  count : Nat := 0
  endsAt : Option Span := none

/-- The counters that a cache keeps, by their keys. -/
abbrev Store := String → Option Counter

namespace Store

variable {s : Store} {key : String} {now : Span} {counter : Counter}

/-- The counter under a key, unless it has ended. -/
def live (now : Span) (key : String) (s : Store) : Option Counter :=
  (s key).filter fun counter => counter.endsAt.all (now < ·)

/-- Adds one to the counter under a key. A new one counts from zero. -/
def increment (now : Span) (key : String) (s : Store) : Nat × Store :=
  let counter := (s.live now key).getD {}
  (counter.count + 1, Function.update s key (some { counter with count := counter.count + 1 }))

/-- Lets the counter under a key end some seconds from now, if there is one. -/
def expire (now : Span) (key : String) (seconds : Nat) (s : Store) : Store :=
  match s.live now key with
  | none => s
  | some counter =>
    Function.update s key (some { counter with endsAt := some (now + Span.ofSeconds seconds) })

theorem live_of_none (unknown : s key = none) : s.live now key = none := by
  rw [live, unknown, Option.filter_none]

/-- A counter that ends later is still there. -/
theorem live_of_some (known : s key = some counter) (later : ∀ time ∈ counter.endsAt, now < time) :
    s.live now key = some counter := by
  rw [live, known, Option.filter_some, if_pos]
  rw [Option.all_eq_true]
  intro time ends
  exact decide_eq_true (later time ends)

theorem expire_other {other : String} (distinct : other ≠ key) (seconds : Nat) :
    s.expire now key seconds other = s other := by
  unfold expire
  cases s.live now key with
  | none => rfl
  | some counter => exact Function.update_of_ne distinct ..

/-- A counter stays where it stands, and keeps its end or is given one. -/
theorem expire_self (now : Span) (known : s key = some counter) (seconds : Nat) :
    ∃ ends, s.expire now key seconds key = some ⟨counter.count, ends⟩ ∧
      (ends = counter.endsAt ∨ ends = some (now + Span.ofSeconds seconds)) := by
  unfold expire
  cases found : s.live now key with
  | none => exact ⟨counter.endsAt, known, .inl rfl⟩
  | some present =>
    rw [live, known, Option.filter_some, Option.ite_none_right_eq_some] at found
    cases found.2
    exact ⟨_, Function.update_self .., .inr rfl⟩

end Store

/-! ### Checks of a controller that counts -/

/-- A controller counts in the cache, each tier at a rate. -/
structure Controller.CountsAt (rate : Tier → Nat) (c : Controller) : Prop where
  distributed : c.distributed = true
  rates : ∀ tier, (c.bucket tier).quota.rate = rate tier

namespace Controller

variable {ctx : Context} {tier : Tier} {clock : Clock} {answers : Cache.Answers} {c next : Controller}
  {ruling : Ruling} {rate : Tier → Nat} {decision : Decision} {now : Span}

theorem take_quota {b next : Bucket} {taking : Taking} (taken : b.take now = .ok (taking, next)) :
    next.quota = b.quota := by
  rcases Bucket.take_ends now b with ⟨fault, failed⟩ | ⟨wait, refused⟩ | ⟨⟨left, admitted⟩, _⟩
  · rw [failed] at taken
    cases taken
  · rw [refused] at taken
    cases taken
    rfl
  · rw [admitted] at taken
    cases taken
    rfl

/-- The own bucket of a tier keeps its quota, and so do the others. -/
theorem checkLocal_keeps (done : c.checkLocal tier now = .ok (decision, next))
    (counts : c.CountsAt rate) : next.CountsAt rate := by
  unfold checkLocal at done
  cases taken : (c.bucket tier).take now with
  | error fault => simp [taken, bind, Except.bind] at done
  | ok result =>
    simp only [taken, bind, Except.bind, pure, Except.pure, Except.ok.injEq, Prod.mk.injEq] at done
    obtain ⟨_, rfl⟩ := done
    have quota : result.2.quota = (c.bucket tier).quota := take_quota taken
    cases tier with
    | global =>
      refine ⟨counts.distributed, ?_⟩
      intro other
      cases other with
      | global => exact (congrArg Quota.rate quota).trans (counts.rates .global)
      | admin => exact counts.rates .admin
    | admin =>
      refine ⟨counts.distributed, ?_⟩
      intro other
      cases other with
      | global => exact counts.rates .global
      | admin => exact (congrArg Quota.rate quota).trans (counts.rates .admin)

/-- A check that is told a count is decided by it alone, leaves the buckets as they are, and sets the end of
the counter if it was the first to count. -/
theorem check_of_count (ctx : Context) (counts : c.CountsAt rate) {count : Int}
    (answered : (answers.increment (windowKey tier clock.now)).2 = .ok count) :
    ∃ ruling, c.check ctx tier clock answers = .ok (ruling, c) ∧
      ruling.decision = Decision.ofCount tier.label (rate tier) clock.now count ∧
      ruling.commands = .increment (windowKey tier clock.now) ::
        if count = 1 then [.expire (windowKey tier clock.now) windowExpiry] else [] := by
  unfold check countShared
  by_cases first : count = 1
  · simp only [counts.distributed, counts.rates, answered, first, if_true, pure, Except.pure]
    exact ⟨_, rfl, rfl, rfl⟩
  · simp only [counts.distributed, counts.rates, answered, first, if_true, if_false, pure, Except.pure]
    exact ⟨_, rfl, rfl, rfl⟩

/-- A check that is told no count asks for nothing more, and leaves rates as they are. -/
theorem check_of_failure (counts : c.CountsAt rate) {e : Cache.Error}
    (failed : (answers.increment (windowKey tier clock.now)).2 = .error e)
    (done : c.check ctx tier clock answers = .ok (ruling, next)) :
    next.CountsAt rate ∧ ruling.commands = [.increment (windowKey tier clock.now)] := by
  unfold check countShared at done
  simp only [counts.distributed, failed, if_true] at done
  cases own : c.checkLocal tier (clock.elapsed +
      (answers.increment (windowKey tier clock.now)).1.wait clock.elapsed) with
  | error fault => simp [own, bind, Except.bind] at done
  | ok result =>
    simp only [own, bind, Except.bind, pure, Except.pure, Except.ok.injEq, Prod.mk.injEq] at done
    obtain ⟨rfl, rfl⟩ := done
    exact ⟨checkLocal_keeps own counts, rfl⟩

end Controller

end HostControl.Admission
