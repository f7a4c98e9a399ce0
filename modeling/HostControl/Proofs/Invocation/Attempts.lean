/-
Module: HostControl.Proofs.Invocation.Attempts
Purpose: The attempts of a call. A call tries until an outcome is conclusive or no attempt is left, and
  sleeps between two attempts for what the service asked for or for a time of the backoff. What happens up
  to some time is the front part of what happens in all.
Main exports: Conclusive, Decides, Asked, Between, Script.ends, follow_attempts, follow_within
-/
import HostControl.Invocation.Course

namespace HostControl.Invocation

variable {α : Type}

/-! ### What the rules say -/

/-- An outcome that another attempt cannot better: a value, or a status below 500 but for those of a request
that came too often or too slowly. -/
inductive Conclusive : Except Failure α → Prop where
  | value (v : α) : Conclusive (.ok v)
  | status {code : Nat} {wait : Option Span} {body : String} (below : code < 500) (often : code ≠ 429)
      (slow : code ≠ 408) : Conclusive (.error (.status code wait body))

theorem conclusive_error_iff {failure : Failure} :
    Conclusive (.error failure : Except Failure α) ↔ failure.retryable = false := by
  cases failure with
  | transport message =>
      simp only [Failure.retryable, Bool.true_eq_false, iff_false]
      exact nofun
  | status code wait body =>
      simp only [Failure.retryable, Bool.or_eq_false_iff, decide_eq_false_iff_not, beq_eq_false_iff_ne,
        Nat.not_le]
      constructor
      · rintro ⟨⟩
        exact ⟨⟨‹_›, ‹_›⟩, ‹_›⟩
      · rintro ⟨⟨below, often⟩, slow⟩
        exact .status below often slow

/-- The attempt that decides a call, counted from zero: all before it fail, not conclusively, and it does not
do so unless no further attempt is allowed. -/
structure Decides (attempts : Nat) (script : Script α) (n : Nat) : Prop where
  allowed : n < attempts
  before : ∀ i < n, ∃ delay failure, script i = .after delay (.error failure) ∧
    ¬ Conclusive (.error failure : Except Failure α)
  final : ∀ delay outcome, script n = .after delay outcome → Conclusive outcome ∨ n + 1 = attempts

/-- The sleep asked for after a failure: exactly the time that the service asked for when it refused too many
requests, and else a time within the bounds of the backoff. -/
structure Asked (rules : RetryRules) (retry : Nat) (failure : Failure) (sleep : Span) : Prop where
  requested : ∀ time body, failure = .status 429 (some time) body → sleep = time
  backoff : (∀ time body, failure ≠ .status 429 (some time) body) →
    ∃ millis, sleep = Span.ofMillis millis ∧ rules.floor retry ≤ millis ∧ millis ≤ rules.ceiling retry

theorem asked_delay (rules : RetryRules) (retry draw : Nat) (failure : Failure) :
    Asked rules retry failure (rules.delay retry draw failure) := by
  constructor
  · rintro time body rfl
    rfl
  · intro other
    refine ⟨rules.backoff retry draw, ?_, rules.backoff_bounds retry draw⟩
    have nothing : failure.requestedWait = none := by
      unfold Failure.requestedWait
      split
      · next wait body =>
          cases wait with
          | none => rfl
          | some time => exact absurd rfl (other time body)
      · rfl
    rw [RetryRules.delay, nothing]

/-- When and how an attempt ends that starts at some time of the call, if it ends. -/
def Script.ends (script : Script α) (began start : Span) (attempt : Nat) :
    Option (Span × Except Failure α) :=
  match script attempt with
  | .after delay outcome => some (start + delay.wait (began + start), outcome)
  | .never => none

/-- One attempt starts after another: as soon as the sleep that was asked for is over, which began with the
failure of the attempt before. -/
def Between (rules : RetryRules) (script : Script α) (began : Span) (attempt : Nat) (start next : Span) :
    Prop :=
  ∃ ended failure sleep, script.ends began start attempt = some (ended, .error failure) ∧
    ¬ Conclusive (.error failure : Except Failure α) ∧ Asked rules attempt failure sleep ∧
    next = ended + Timer.sleep (began + ended) sleep

/-! ### The course of a call -/

section

variable {rules : RetryRules} {script : Script α} {draws : Nat → Nat} {began : Span}
  {horizon : Option Span} {left attempt : Nat} {start : Span}

/-- The start of the attempt after a failure. -/
def nextStart (rules : RetryRules) (draws : Nat → Nat) (began ended : Span) (attempt : Nat)
    (failure : Failure) : Span :=
  ended + Timer.sleep (began + ended) (rules.delay attempt (draws attempt) failure)

/-- How a course unfolds from an attempt on, with so many more attempts behind it: the attempt never ends or
not in time, or it decides, or the next one does not start in time, or the course unfolds from that one. -/
inductive Unfolds (rules : RetryRules) (script : Script α) (draws : Nat → Nat) (began : Span)
    (horizon : Option Span) : Nat → Nat → Span → Course α → Prop where
  | hangs {left attempt : Nat} {start : Span} {waits : List Span} :
      script.ends began start attempt = none →
      Unfolds rules script draws began horizon left attempt start ⟨[start], waits, none⟩
  | late {left attempt : Nat} {start ended : Span} {waits : List Span} {outcome : Except Failure α} :
      script.ends began start attempt = some (ended, outcome) → beyond horizon ended = true →
      Unfolds rules script draws began horizon left attempt start ⟨[start], waits, none⟩
  | decided {left attempt : Nat} {start ended : Span} {waits : List Span} {outcome : Except Failure α} :
      script.ends began start attempt = some (ended, outcome) → beyond horizon ended = false →
      (Conclusive outcome ∨ left = 0) →
      Unfolds rules script draws began horizon left attempt start ⟨[start], waits, some (ended, outcome)⟩
  | sleeps {left attempt : Nat} {start ended : Span} {waits : List Span} {failure : Failure} :
      script.ends began start attempt = some (ended, .error failure) → beyond horizon ended = false →
      ¬ Conclusive (.error failure : Except Failure α) →
      beyond horizon (nextStart rules draws began ended attempt failure) = true →
      Unfolds rules script draws began horizon (left + 1) attempt start ⟨[start], waits, none⟩
  | again {left attempt : Nat} {start ended : Span} {waits : List Span} {failure : Failure}
      {rest : Course α} :
      script.ends began start attempt = some (ended, .error failure) → beyond horizon ended = false →
      ¬ Conclusive (.error failure : Except Failure α) →
      beyond horizon (nextStart rules draws began ended attempt failure) = false →
      Unfolds rules script draws began horizon left (attempt + 1)
        (nextStart rules draws began ended attempt failure) rest →
      Unfolds rules script draws began horizon (left + 1) attempt start
        ⟨start :: rest.starts, waits, rest.finish⟩

theorem unfolds_follow (rules : RetryRules) (script : Script α) (draws : Nat → Nat) (began : Span)
    (horizon : Option Span) (left attempt : Nat) (start : Span) :
    Unfolds rules script draws began horizon left attempt start
      (Course.follow rules script draws began horizon left attempt start) := by
  induction left using Nat.strongRecOn generalizing attempt start with
  | ind left ih =>
      rw [Course.follow.eq_def]
      cases met : script attempt with
      | never => exact .hangs (by rw [Script.ends, met])
      | after delay outcome =>
          have ends : script.ends began start attempt =
              some (start + delay.wait (began + start), outcome) := by rw [Script.ends, met]
          cases passed : beyond horizon (start + delay.wait (began + start)) with
          | true =>
              simp only [passed, if_true]
              exact .late ends passed
          | false =>
              simp only [passed, Bool.false_eq_true, if_false]
              cases outcome with
              | ok value => exact .decided ends passed (.inl (.value value))
              | error failure =>
                  cases left with
                  | zero => exact .decided ends passed (.inr rfl)
                  | succ more =>
                      cases again : failure.retryable with
                      | false =>
                          simp only [again, Bool.false_eq_true, if_false]
                          exact .decided ends passed (.inl (conclusive_error_iff.2 again))
                      | true =>
                          have inconclusive : ¬ Conclusive (.error failure : Except Failure α) := by
                            rw [conclusive_error_iff, again]
                            exact nofun
                          simp only [again, if_true]
                          split
                          · next gone => exact .sleeps ends passed inconclusive gone
                          · next reached =>
                              exact .again ends passed inconclusive (Bool.eq_false_iff.2 reached)
                                (ih more (Nat.lt_succ_self more) _ _)

/-! ### Times of a course -/

variable {course : Course α}

theorem ends_eq_some_iff {ended : Span} {outcome : Except Failure α} :
    script.ends began start attempt = some (ended, outcome) ↔
      ∃ delay : Delay, script attempt = .after delay outcome ∧
        ended = start + delay.wait (began + start) := by
  unfold Script.ends
  cases script attempt with
  | never => simp
  | after delay outcome' =>
      simp only [Option.some.injEq, Prod.mk.injEq, Answer.after.injEq]
      constructor
      · rintro ⟨rfl, rfl⟩
        exact ⟨delay, ⟨rfl, rfl⟩, rfl⟩
      · rintro ⟨_, ⟨rfl, rfl⟩, rfl⟩
        exact ⟨rfl, rfl⟩

theorem le_of_ends {ended : Span} {outcome : Except Failure α}
    (ends : script.ends began start attempt = some (ended, outcome)) : start ≤ ended := by
  obtain ⟨delay, _, rfl⟩ := ends_eq_some_iff.1 ends
  exact Nat.le_add_right _ _

theorem beyond_eq_true_iff {time t : Span} : beyond (some time) t = true ↔ time < t := by
  rw [beyond, Option.any_some, decide_eq_true_eq]

theorem beyond_eq_false_iff {time t : Span} : beyond (some time) t = false ↔ t ≤ time := by
  rw [beyond, Option.any_some, decide_eq_false_iff_not, Nat.not_lt]

theorem le_nextStart (rules : RetryRules) (draws : Nat → Nat) (began ended : Span) (attempt : Nat)
    (failure : Failure) : ended ≤ nextStart rules draws began ended attempt failure :=
  Nat.le_add_right _ _

/-- A course begins with the start of its first attempt. -/
theorem Unfolds.starts_eq (unfolds : Unfolds rules script draws began horizon left attempt start course) :
    ∃ later, course.starts = start :: later := by
  cases unfolds <;> exact ⟨_, rfl⟩

/-- A course does not end before it starts. -/
theorem Unfolds.le_finish (unfolds : Unfolds rules script draws began horizon left attempt start course)
    {ended : Span} {outcome : Except Failure α} (finished : course.finish = some (ended, outcome)) :
    start ≤ ended := by
  induction unfolds with
  | hangs => cases finished
  | late => cases finished
  | sleeps => cases finished
  | decided ends =>
      cases finished
      exact le_of_ends ends
  | again ends _ _ _ _ ih =>
      exact Nat.le_trans (le_of_ends ends) (Nat.le_trans (le_nextStart _ _ _ _ _ _) (ih finished))

/-- No attempt starts after the end of a course. -/
theorem Unfolds.starts_le_finish
    (unfolds : Unfolds rules script draws began horizon left attempt start course)
    {ended : Span} {outcome : Except Failure α} (finished : course.finish = some (ended, outcome)) :
    ∀ s ∈ course.starts, s ≤ ended := by
  induction unfolds with
  | hangs => cases finished
  | late => cases finished
  | sleeps => cases finished
  | decided ends =>
      cases finished
      intro s listed
      rw [List.mem_singleton.1 listed]
      exact le_of_ends ends
  | again ends kept inconclusive reached rest ih =>
      intro s listed
      rcases List.mem_cons.1 listed with rfl | later
      · exact (Unfolds.again ends kept inconclusive reached rest).le_finish finished
      · exact ih finished s later

/-- Nothing of a course lies before its start. -/
theorem Unfolds.none_within {time : Span}
    (unfolds : Unfolds rules script draws began none left attempt start course) (late : time < start) :
    course.starts.takeWhile (· ≤ time) = [] ∧ course.finish.filter (fun e => e.1 ≤ time) = none := by
  obtain ⟨later, starts⟩ := unfolds.starts_eq
  refine ⟨by simp [starts, late], ?_⟩
  cases finished : course.finish with
  | none => rfl
  | some ending =>
      have after := Nat.lt_of_lt_of_le late (unfolds.le_finish finished)
      simp [Option.filter, after]

/-- What a course holds up to a time is the front part of what it holds in all. -/
theorem Unfolds.within {whole part : Course α} {time : Span}
    (all : Unfolds rules script draws began none left attempt start whole)
    (some_of_it : Unfolds rules script draws began (some time) left attempt start part)
    (begun : start ≤ time) :
    part.starts = whole.starts.takeWhile (· ≤ time) ∧
      part.finish = whole.finish.filter fun e => e.1 ≤ time := by
  induction all generalizing part with
  | hangs ends =>
      cases some_of_it with
      | hangs => simp [begun]
      | late ends' => rw [ends] at ends'; cases ends'
      | decided ends' => rw [ends] at ends'; cases ends'
      | sleeps ends' => rw [ends] at ends'; cases ends'
      | again ends' => rw [ends] at ends'; cases ends'
  | late _ gone => cases gone
  | sleeps _ _ _ gone => cases gone
  | decided ends _ final =>
      cases some_of_it with
      | hangs ends' => rw [ends] at ends'; cases ends'
      | late ends' gone =>
          rw [ends] at ends'
          cases ends'
          simp [begun, Option.filter, beyond_eq_true_iff.1 gone]
      | decided ends' kept =>
          rw [ends] at ends'
          cases ends'
          simp [begun, Option.filter, beyond_eq_false_iff.1 kept]
      | sleeps ends' _ inconclusive =>
          rw [ends] at ends'
          cases ends'
          exact absurd final (by simp [inconclusive])
      | again ends' _ inconclusive =>
          rw [ends] at ends'
          cases ends'
          exact absurd final (by simp [inconclusive])
  | again ends _ inconclusive _ rest ih =>
      cases some_of_it with
      | hangs ends' => rw [ends] at ends'; cases ends'
      | late ends' gone =>
          rw [ends] at ends'
          cases ends'
          obtain ⟨starts, finish⟩ := rest.none_within
            (Nat.lt_of_lt_of_le (beyond_eq_true_iff.1 gone) (le_nextStart _ _ _ _ _ _))
          simp [begun, starts, finish]
      | decided ends' _ final =>
          rw [ends] at ends'
          cases ends'
          exact absurd final (by simp [inconclusive])
      | sleeps ends' _ _ gone =>
          rw [ends] at ends'
          cases ends'
          obtain ⟨starts, finish⟩ := rest.none_within (beyond_eq_true_iff.1 gone)
          simp [begun, starts, finish]
      | again ends' _ _ kept rest' =>
          rw [ends] at ends'
          cases ends'
          obtain ⟨starts, finish⟩ := ih rest' (beyond_eq_false_iff.1 kept)
          simp [begun, starts, finish]

/-! ### The attempts that a course makes -/

/-- An attempt that does not decide leaves it to those after it. -/
theorem Decides.succ {attempts n : Nat} {delay : Delay} {failure : Failure}
    (met : script attempt = .after delay (.error failure))
    (inconclusive : ¬ Conclusive (.error failure : Except Failure α))
    (decides : Decides attempts (fun i => script (attempt + 1 + i)) n) :
    Decides (attempts + 1) (fun i => script (attempt + i)) (n + 1) where
  allowed := Nat.succ_lt_succ decides.allowed
  before := by
    intro i earlier
    cases i with
    | zero => exact ⟨delay, failure, met, inconclusive⟩
    | succ i =>
        have later := decides.before i (Nat.lt_of_succ_lt_succ earlier)
        rwa [Nat.add_right_comm, Nat.add_assoc] at later
  final := by
    intro delay outcome ends
    rw [← Nat.add_assoc, Nat.add_right_comm] at ends
    exact (decides.final delay outcome ends).imp_right (congrArg Nat.succ)

/-- A course that is followed to its end makes the attempts up to the one that decides, each after the sleep
that was asked for, and ends as that one does. -/
theorem Unfolds.attempts (unfolds : Unfolds rules script draws began none left attempt start course) :
    ∃ n, Decides (left + 1) (fun i => script (attempt + i)) n ∧ course.starts.length = n + 1 ∧
      course.starts[0]? = some start ∧
      (∀ i this next, course.starts[i]? = some this → course.starts[i + 1]? = some next →
        Between rules script began (attempt + i) this next) ∧
      ∃ last, course.starts[n]? = some last ∧ course.finish = script.ends began last (attempt + n) := by
  induction unfolds with
  | late _ gone => cases gone
  | sleeps _ _ _ gone => cases gone
  | @hangs left attempt start _ ends =>
      refine ⟨0, ⟨Nat.succ_pos _, nofun, ?_⟩, rfl, rfl, ?_, start, rfl, ends.symm⟩
      · intro delay outcome (met : script attempt = _)
        rw [ends_eq_some_iff.2 ⟨delay, met, rfl⟩] at ends
        cases ends
      · intro i this next _ later
        simp at later
  | @decided left attempt start ended _ outcome ends _ final =>
      refine ⟨0, ⟨Nat.succ_pos _, nofun, ?_⟩, rfl, rfl, ?_, start, rfl, ends.symm⟩
      · intro delay outcome' (met : script attempt = _)
        rw [ends_eq_some_iff.2 ⟨delay, met, rfl⟩] at ends
        cases ends
        exact final.imp_right fun none_left => by rw [none_left]
      · intro i this next _ later
        simp at later
  | @again left attempt start ended _ failure rest ends _ inconclusive _ _ ih =>
      obtain ⟨n, decides, length, first, gaps, last, reached, finish⟩ := ih
      obtain ⟨delay, met, _⟩ := ends_eq_some_iff.1 ends
      refine ⟨n + 1, decides.succ met inconclusive, congrArg Nat.succ length, rfl, ?_, last, reached, ?_⟩
      · intro i this next here later
        cases i with
        | zero =>
            cases here
            rw [List.getElem?_cons_succ, first] at later
            cases later
            exact ⟨ended, failure, _, ends, inconclusive, asked_delay rules attempt _ failure, rfl⟩
        | succ i =>
            rw [List.getElem?_cons_succ] at here later
            have between := gaps i this next here later
            rwa [Nat.add_right_comm, Nat.add_assoc] at between
      · rw [finish, Nat.add_right_comm, Nat.add_assoc]

end

end HostControl.Invocation
