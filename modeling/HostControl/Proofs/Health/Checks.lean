/-
Module: HostControl.Proofs.Health.Checks
Purpose: How long checks of the services take, and what each of them depends on. A check ends when its answer
  arrives, or when the timer of the deadline goes off, which is at the deadline up to where the timer looks. Both
  checks run at once, and neither of them is told anything of the other one.
Main exports: Monitor.cutoff, capped, Well, Amiss, Concludes, concludes_within, primary_concludes,
  cache_concludes, checks_bounded_and_independent
-/
import HostControl.Health.Monitor

namespace HostControl.Health

open Text

/-! ### The end of the deadline -/

/-- How long it takes from a time of the clock until the timer of the deadline goes off. -/
def Monitor.cutoff (now : Span) (m : Monitor) : Span := Timer.deadline now m.deadline

/-! ### One check -/

section

variable {α ε : Type} {now cutoff : Span} {answer : Answer (Except ε α)}

/-- When an answer is no longer waited for: when it arrives, but no later than the cutoff. -/
def capped {β : Type} (now cutoff : Span) : Answer β → Span
  | .after delay _ => min (delay.wait now) cutoff
  | .never => cutoff

/-- The service answers well, no later than the cutoff. -/
def Well (now cutoff : Span) (answer : Answer (Except ε α)) : Prop :=
  ∃ delay value, answer = .after delay (.ok value) ∧ delay.wait now ≤ cutoff

/-- The service fails, or its answer is late or never comes. -/
inductive Amiss (now cutoff : Span) : Answer (Except ε α) → Prop where
  | fails {delay : Delay} {e : ε} : Amiss now cutoff (.after delay (.error e))
  | late {delay : Delay} {reply : Except ε α} : cutoff < delay.wait now → Amiss now cutoff (.after delay reply)
  | silent : Amiss now cutoff .never

/-- How the check of a service ends, whose errors have messages and whose answers have details: how long it takes,
and what is reported. -/
inductive Concludes (message : ε → String) (details : α → Option Details) (overdue : String)
    (now cutoff : Span) : Answer (Except ε α) → Span × Check → Prop where
  | answered {delay : Delay} {value : α} (arrives : delay.wait now ≤ cutoff) :
      Concludes message details overdue now cutoff (.after delay (.ok value))
        (delay.wait now, {
          condition := .healthy
          responseMillis := (delay.wait now).wordMillis
          details := details value })
  | failed {delay : Delay} {e : ε} (arrives : delay.wait now ≤ cutoff) :
      Concludes message details overdue now cutoff (.after delay (.error e))
        (delay.wait now, {
          condition := .unhealthy
          responseMillis := (delay.wait now).wordMillis
          error := some (message e) })
  | late {delay : Delay} {reply : Except ε α} (missed : cutoff < delay.wait now) :
      Concludes message details overdue now cutoff (.after delay reply)
        (cutoff, {
          condition := .unhealthy
          responseMillis := cutoff.wordMillis
          error := some overdue })
  | silent : Concludes message details overdue now cutoff .never
      (cutoff, {
        condition := .unhealthy
        responseMillis := cutoff.wordMillis
        error := some overdue })

namespace Concludes

variable {message : ε → String} {details : α → Option Details} {overdue : String} {ended : Span × Check}

theorem took_eq (concludes : Concludes message details overdue now cutoff answer ended) :
    ended.1 = capped now cutoff answer := by
  cases concludes with
  | answered arrives => exact (Nat.min_eq_left arrives).symm
  | failed arrives => exact (Nat.min_eq_left arrives).symm
  | late missed => exact (Nat.min_eq_right (Nat.le_of_lt missed)).symm
  | silent => rfl

theorem healthy_iff (concludes : Concludes message details overdue now cutoff answer ended) :
    ended.2.condition = .healthy ↔ Well now cutoff answer := by
  cases concludes with
  | answered arrives => exact iff_of_true rfl ⟨_, _, rfl, arrives⟩
  | failed => exact iff_of_false nofun (by rintro ⟨_, _, same, _⟩; cases same)
  | late missed =>
    refine iff_of_false nofun ?_
    rintro ⟨_, _, same, arrives⟩
    cases same
    exact Nat.not_le.2 missed arrives
  | silent => exact iff_of_false nofun (by rintro ⟨_, _, same, _⟩; cases same)

theorem unhealthy_iff (concludes : Concludes message details overdue now cutoff answer ended) :
    ended.2.condition = .unhealthy ↔ Amiss now cutoff answer := by
  cases concludes with
  | answered arrives =>
    refine iff_of_false nofun fun amiss => ?_
    cases amiss with
    | late missed => exact Nat.not_le.2 missed arrives
  | failed => exact iff_of_true rfl .fails
  | late missed => exact iff_of_true rfl (.late missed)
  | silent => exact iff_of_true rfl .silent

end Concludes

theorem capped_le {β : Type} (now cutoff : Span) (answer : Answer β) : capped now cutoff answer ≤ cutoff := by
  cases answer with
  | after => exact Nat.min_le_right ..
  | never => exact Nat.le_refl _

/-- What a check reports of the end of its waiting, with the time that took. -/
def concluded (message : ε → String) (details : α → Option Details) (overdue : String) :
    Span × Option (Except ε α) → Span × Check
  | (took, some (.ok value)) =>
    (took, { condition := .healthy, responseMillis := took.wordMillis, details := details value })
  | (took, some (.error e)) => (took, Monitor.failure (message e) took)
  | (took, none) => (took, Monitor.failure overdue took)

theorem concludes_within (message : ε → String) (details : α → Option Details) (overdue : String)
    (now limit : Span) (answer : Answer (Except ε α)) :
    Concludes message details overdue now (Timer.deadline now limit) answer
      (concluded message details overdue (answer.within now limit)) := by
  cases answer with
  | never => exact .silent
  | after delay reply =>
    rw [Answer.within]
    by_cases arrives : delay.wait now ≤ Timer.deadline now limit
    · rw [if_pos arrives]
      cases reply with
      | ok value => exact .answered arrives
      | error e => exact .failed arrives
    · rw [if_neg arrives]
      exact .late (Nat.not_le.1 arrives)

end

namespace Monitor

variable (m : Monitor) (now : Span)

theorem primary_concludes (answer : Answer (Except ProbeError Details)) :
    Concludes ProbeError.message some (m.overdue "check") now (m.cutoff now) answer
      (m.checkPrimary answer now) := by
  have same : m.checkPrimary answer now =
      concluded ProbeError.message some (m.overdue "check") (answer.within now m.deadline) := by
    rw [checkPrimary]
    rcases answer.within now m.deadline with ⟨took, _ | (e | value)⟩ <;> rfl
  rw [same]
  exact concludes_within ..

theorem cache_concludes (cached : m.cached = true) (answer : Answer (Except Cache.Error Unit)) :
    Concludes Cache.Error.message (fun _ => none) (m.overdue "ping") now (m.cutoff now) answer
      (m.checkCache answer now) := by
  have same : m.checkCache answer now =
      concluded Cache.Error.message (fun _ => none) (m.overdue "ping") (answer.within now m.deadline) := by
    rw [checkCache, if_pos cached]
    rcases answer.within now m.deadline with ⟨took, _ | (e | value)⟩ <;> rfl
  rw [same]
  exact concludes_within ..

theorem cache_of_not_cached (cached : m.cached = false) (answer : Answer (Except Cache.Error Unit)) :
    m.checkCache answer now = (0, { condition := .notConfigured }) := by
  rw [checkCache, if_neg (by simp [cached])]

theorem cache_took (answer : Answer (Except Cache.Error Unit)) :
    (m.checkCache answer now).1 = if m.cached then capped now (m.cutoff now) answer else 0 := by
  cases cached : m.cached with
  | false => rw [cache_of_not_cached m now cached, if_neg Bool.false_ne_true]
  | true => rw [(m.cache_concludes now cached answer).took_eq, if_pos rfl]

theorem cache_unhealthy_iff (answer : Answer (Except Cache.Error Unit)) :
    (m.checkCache answer now).2.condition = .unhealthy ↔ m.cached = true ∧ Amiss now (m.cutoff now) answer := by
  cases cached : m.cached with
  | false =>
    rw [cache_of_not_cached m now cached]
    exact iff_of_false nofun fun h => nomatch h.1
  | true =>
    rw [(m.cache_concludes now cached answer).unhealthy_iff]
    exact (and_iff_right rfl).symm

end Monitor

/-! ### All checks together -/

/-- The checks are bounded and independent, for every deadline and whatever the services answer. All together they
take as long as the slower one, which is no longer waited for from the cutoff on. What is reported of a service does
not depend on the other one, and that of the primary datastore not even on there being a cache. The whole is degraded
exactly if one of them is configured and fails or is late, and ready exactly if the primary datastore answers well. -/
theorem checks_bounded_and_independent (m : Monitor) (answers : Answers) (clock : Clock) :
    ((m.check answers clock).1 = max (capped clock.elapsed (m.cutoff clock.elapsed) answers.primary)
      (if m.cached then capped clock.elapsed (m.cutoff clock.elapsed) answers.ping else 0)) ∧
    (m.check answers clock).1 ≤ m.cutoff clock.elapsed ∧
    Timer.Cutoff clock.elapsed m.deadline (m.cutoff clock.elapsed) ∧
    (∀ cached ping, ({ m with cached := cached }.check { answers with ping := ping } clock).2.primary =
      (m.check answers clock).2.primary) ∧
    (∀ primary, (m.check { answers with primary := primary } clock).2.cache = (m.check answers clock).2.cache) ∧
    ((m.check answers clock).2.degraded = true ↔
      Amiss clock.elapsed (m.cutoff clock.elapsed) answers.primary ∨
        m.cached = true ∧ Amiss clock.elapsed (m.cutoff clock.elapsed) answers.ping) ∧
    ∀ cached, ({ m with cached := cached }.ready answers.primary clock.elapsed).2 = true ↔
      Well clock.elapsed (m.cutoff clock.elapsed) answers.primary := by
  have primary := m.primary_concludes clock.elapsed answers.primary
  have took : (m.check answers clock).1 = max (capped clock.elapsed (m.cutoff clock.elapsed) answers.primary)
      (if m.cached then capped clock.elapsed (m.cutoff clock.elapsed) answers.ping else 0) := by
    rw [← primary.took_eq, ← m.cache_took]
    rfl
  refine ⟨took, ?_, Timer.cutoff_deadline .., fun _ _ => rfl, fun _ => rfl, ?_, fun cached => ?_⟩
  · rw [took]
    refine Nat.max_le.2 ⟨capped_le .., ?_⟩
    split
    · exact capped_le ..
    · exact Nat.zero_le _
  · have degraded : (m.check answers clock).2.degraded =
        (decide ((m.checkPrimary answers.primary clock.elapsed).2.condition = .unhealthy) ||
          decide ((m.checkCache answers.ping clock.elapsed).2.condition = .unhealthy)) := rfl
    rw [degraded, Bool.or_eq_true, decide_eq_true_iff, decide_eq_true_iff, primary.unhealthy_iff,
      m.cache_unhealthy_iff]
  · have ready : ({ m with cached := cached }.ready answers.primary clock.elapsed).2 =
        decide ((m.checkPrimary answers.primary clock.elapsed).2.condition = .healthy) := rfl
    rw [ready, decide_eq_true_iff, primary.healthy_iff]

/-- A check that begins half a millisecond after the clock was started, with a deadline of ten. -/
def halfPast : Clock := { origin := .ofNanos 0, elapsed := 500000 }

def tenMillis : Monitor := { deadline := Span.ofMillis 10, version := "test", started := 0, cached := true }

/-- The primary datastore never answers, the cache does at once. -/
def unanswered : Answers := { primary := .never, ping := .now (.ok ()) }

/-- It takes a millisecond more than the deadline, since the timer looks at the clock only so often. -/
theorem check_outlasts_deadline :
    (tenMillis.check unanswered halfPast).1 = Span.ofMillis 11 ∧
      ¬(tenMillis.check unanswered halfPast).1 ≤ tenMillis.deadline ∧
      (tenMillis.check unanswered halfPast).2.primary.responseMillis = 11 := by decide

end HostControl.Health
