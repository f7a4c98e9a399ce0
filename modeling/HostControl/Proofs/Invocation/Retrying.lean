/-
Module: HostControl.Proofs.Invocation.Retrying
Purpose: A call from start to end. A refused call makes no attempt. An admitted one makes its attempts by the
  rules, up to its end or to the time at which its token fires, and its circuit is told once how it ended.
Main exports: Tries, of_attempts, Returns, Settled, call_by_rules
-/
import HostControl.Invocation.Invoker
import HostControl.Proofs.Invocation.Attempts
import Mathlib.Data.List.TakeWhile

namespace HostControl.Invocation

variable {α : Type}

/-! ### What a call does when it is left alone -/

/-- The attempts of a call that nobody gives up, from the first to the one that decides: when they start, and
how the call ends if it does. -/
structure Tries (rules : RetryRules) (script : Script α) (began : Span) (n : Nat) (starts : List Span)
    (finish : Option (Span × Except Failure α)) : Prop where
  decides : Decides rules.attempts script n
  count : starts.length = n + 1
  first : starts[0]? = some 0
  between : ∀ i this next, starts[i]? = some this → starts[i + 1]? = some next →
    Between rules script began i this next
  last : ∃ start, starts[n]? = some start ∧ finish = script.ends began start n

section

variable {rules : RetryRules} {script : Script α} {draws : Nat → Nat} {began : Span}

theorem unfolds_of (rules : RetryRules) (script : Script α) (draws : Nat → Nat) (began : Span)
    (horizon : Option Span) :
    Unfolds rules script draws began horizon (rules.attempts - 1) 0 0
      (Course.of rules script draws began horizon) :=
  unfolds_follow rules script draws began horizon (rules.attempts - 1) 0 0

/-- The course of a whole call is a course by the rules. -/
theorem of_attempts (rules : RetryRules) (script : Script α) (draws : Nat → Nat) (began : Span) :
    ∃ n, Tries rules script began n (Course.of rules script draws began none).starts
      (Course.of rules script draws began none).finish := by
  obtain ⟨n, decides, count, first, between, last, reached, finish⟩ :=
    (unfolds_of rules script draws began none).attempts
  have whole : rules.attempts - 1 + 1 = rules.attempts := Nat.succ_pred_eq_of_pos rules.attempts_pos
  simp only [Nat.zero_add, whole] at decides between finish
  exact ⟨n, decides, count, first, between, last, reached, finish⟩

/-! ### The account of a call -/

/-- A token that had fired before the call leaves time for the start of an attempt only. -/
theorem account_of_fired (horizon : Option Span) :
    Account.of rules script draws .fired began horizon = some ⟨[0], [], 0, .abandoned⟩ :=
  if_pos rfl

/-- A token that never fires leaves the course as it is. -/
theorem account_of_silent {token : Token} (silent : token.time? began = none) :
    Account.of rules script draws token began none =
      Account.ofCourse (Course.of rules script draws began none) := by
  have open_yet : token ≠ .fired := by
    rintro rfl
    cases silent
  rw [Account.of, if_neg open_yet, silent]

/-- A token that fires lets stand what the course holds up to then. -/
theorem account_of_firing {token : Token} {time : Span} (open_yet : token ≠ .fired)
    (fires : token.time? began = some time) :
    Account.of rules script draws token began none =
      (Account.ofCourse (Course.of rules script draws began (some time))).or
        (some ⟨(Course.of rules script draws began (some time)).starts,
          (Course.of rules script draws began (some time)).waits, time, .abandoned⟩) := by
  rw [Account.of, if_neg open_yet, fires]
  rfl

/-- What the course holds up to the firing of a token, as part of what it holds in all. -/
theorem of_within (rules : RetryRules) (script : Script α) (draws : Nat → Nat) (began time : Span) :
    (Course.of rules script draws began (some time)).starts =
        (Course.of rules script draws began none).starts.takeWhile (· ≤ time) ∧
      (Course.of rules script draws began (some time)).finish =
        (Course.of rules script draws began none).finish.filter fun e => e.1 ≤ time :=
  (unfolds_of rules script draws began none).within (unfolds_of rules script draws began (some time))
    (Nat.zero_le time)

/-- A call that ends by itself, no later than its token fires. -/
theorem account_of_ended {token : Token} {ended : Span} {outcome : Except Failure α}
    (open_yet : token ≠ .fired) (in_time : ∀ time, token.time? began = some time → ended ≤ time)
    (finished : (Course.of rules script draws began none).finish = some (ended, outcome)) :
    ∃ waits, Account.of rules script draws token began none =
      some ⟨(Course.of rules script draws began none).starts, waits, ended, .ofExcept outcome⟩ := by
  cases fires : token.time? began with
  | none =>
      rw [account_of_silent fires, Account.ofCourse, finished]
      exact ⟨_, rfl⟩
  | some time =>
      have early := in_time time fires
      obtain ⟨starts, finish⟩ := of_within rules script draws began time
      rw [finished, Option.filter_some, if_pos (decide_eq_true early)] at finish
      have all : (Course.of rules script draws began none).starts.takeWhile (· ≤ time) =
          (Course.of rules script draws began none).starts := by
        rw [List.takeWhile_eq_self_iff]
        intro s listed
        have := (unfolds_of rules script draws began none).starts_le_finish finished s listed
        exact decide_eq_true (Nat.le_trans this early)
      rw [account_of_firing open_yet fires, Account.ofCourse, finish, starts, all]
      exact ⟨_, rfl⟩

/-- A call whose token fires while it goes on. -/
theorem account_of_abandoned {token : Token} {time : Span} (open_yet : token ≠ .fired)
    (fires : token.time? began = some time)
    (going : ∀ ended outcome,
      (Course.of rules script draws began none).finish = some (ended, outcome) → time < ended) :
    ∃ waits, Account.of rules script draws token began none =
      some ⟨(Course.of rules script draws began none).starts.takeWhile (· ≤ time), waits, time,
        .abandoned⟩ := by
  obtain ⟨starts, finish⟩ := of_within rules script draws began time
  have unfinished : (Course.of rules script draws began (some time)).finish = none := by
    rw [finish, Option.filter_eq_none_iff]
    intro ending finished
    have late := going ending.1 ending.2 finished
    simp only [decide_eq_true_eq, Nat.not_le]
    exact late
  rw [account_of_firing open_yet fires, Account.ofCourse, unfinished, starts]
  exact ⟨_, rfl⟩

end

/-! ### The call and its circuit -/

/-- How a call comes back from its last attempt: with which result for its caller, and with which outcome for its
circuit. A failure names the service that was called. -/
inductive Returns (service : String) : Except Failure α → Except CallError α → Outcome → Prop
  | value {value : α} : Returns service (.ok value) (.ok value) .success
  | transport {message : String} :
    Returns service (.error (.transport message)) (.error (.transport service message)) .failure
  | status {code : Nat} {wait : Option Span} {body : String} :
    Returns service (.error (.status code wait body)) (.error (.status service code body)) .failure

theorem returns_ofExcept (service : String) (attempt : Except Failure α) :
    Returns service attempt ((Ending.ofExcept attempt).result service) (Ending.ofExcept attempt).outcome := by
  rcases attempt with (message | ⟨code, wait, body⟩) | value
  · exact .transport
  · exact .status
  · exact .value

/-- A call that was made has ended: its caller has the result in a reply with the starts of the attempts and the time
that the call took, and the circuits are those that let the call through, told once of the outcome. -/
structure Settled (call : Call α) (permit : Permit) (admitted : Circuits) (now : Span)
    (made : Option (Reply α) × List Invoker.Happening × Invoker) (starts : List Span) (took : Span)
    (result : Except CallError α) (outcome : Outcome) : Prop where
  reply : made.1 = some ⟨result, starts, took⟩
  told : made.2.2.circuits = (admitted.record call.service permit outcome (now + took)).1

section

variable {inv : Invoker} {call : Call α} {token : Token} {now : Span}

/-- A refused call ends at once, and its circuit is not told anything. -/
theorem call_of_refused (refuses : (inv.circuits.acquire call.service now).1 = none) :
    (inv.call call token now).1 = some ⟨.error (.circuitOpen call.service), [], 0⟩ ∧
      (inv.call call token now).2.2.circuits = (inv.circuits.acquire call.service now).2.2 := by
  simp only [Invoker.call, Invoker.enter, refuses, Invoker.refused, and_self]

/-- An admitted call that never ends leaves its circuit waiting. -/
theorem call_of_endless {permit : Permit}
    (admits : (inv.circuits.acquire call.service now).1 = some permit)
    (endless : Account.of inv.retry call.script call.draws token now none = none) :
    (inv.call call token now).1 = none ∧
      (inv.call call token now).2.2.circuits = (inv.circuits.acquire call.service now).2.2 := by
  simp only [Invoker.call, Invoker.enter, admits, endless, and_self]

/-- An admitted call is settled as its account says. -/
theorem call_of_account {permit : Permit} {starts waits : List Span} {took : Span} {ending : Ending α}
    (admits : (inv.circuits.acquire call.service now).1 = some permit)
    (account : Account.of inv.retry call.script call.draws token now none =
      some ⟨starts, waits, took, ending⟩) :
    Settled call permit (inv.circuits.acquire call.service now).2.2 now (inv.call call token now) starts took
      (ending.result call.service) ending.outcome := by
  constructor
  · simp only [Invoker.call, Invoker.enter, admits, account, Invoker.settle]
  · simp only [Invoker.call, Invoker.enter, admits, account, Invoker.settle]

end

/-- A call by the rules of any configuration, on circuits in any state, with anything that its attempts may
meet with, any draws and any token.

A refused call ends at once without an attempt, and no outcome is reported for it. An admitted call makes
its attempts by the rules: those before the decisive one fail with what another attempt may better, and that
one is conclusive or the last that is allowed. If the token had fired before the call began, the call is
cancelled at its start. If the token fires before the decisive attempt has ended, the call is cancelled at
that time, with the attempts that started until then; either way its circuit is told that it was abandoned.
And else the call ends with the decisive attempt, if that ends: its caller gets the value, and its circuit is
told of a success, or its caller gets the failure, and its circuit is told of one. -/
theorem call_by_rules (breaker : Config.Breaker) (retry : Config.Retry) (inv : Invoker)
    (configured : inv.retry = (Invoker.of breaker retry).retry) (call : Call α) (token : Token)
    (now : Span) :
    let made := inv.call call token now
    let admitted := (inv.circuits.acquire call.service now).2.2
    inv.retry.attempts = max retry.maxAttempts.toNat 1 ∧
    ((inv.circuits.acquire call.service now).1 = none →
      made.1 = some ⟨.error (.circuitOpen call.service), [], 0⟩ ∧ made.2.2.circuits = admitted) ∧
    ∀ permit, (inv.circuits.acquire call.service now).1 = some permit →
      ∃ n starts finish, Tries inv.retry call.script now n starts finish ∧
        (token = .fired →
          Settled call permit admitted now made [0] 0 (.error (.cancelled call.service)) .abandoned) ∧
        (∀ time, token ≠ .fired → token.time? now = some time →
          (∀ ended attempt, finish = some (ended, attempt) → time < ended) →
          Settled call permit admitted now made (starts.takeWhile (· ≤ time)) time
            (.error (.cancelled call.service)) .abandoned) ∧
        (∀ ended attempt, token ≠ .fired → finish = some (ended, attempt) →
          (∀ time, token.time? now = some time → ended ≤ time) →
          ∃ result outcome, Returns call.service attempt result outcome ∧
            Settled call permit admitted now made starts ended result outcome) ∧
        (token.time? now = none → finish = none → made.1 = none ∧ made.2.2.circuits = admitted) := by
  intro made admitted
  refine ⟨by rw [configured]; rfl, call_of_refused, ?_⟩
  intro permit admits
  obtain ⟨n, tries⟩ := of_attempts inv.retry call.script call.draws now
  refine ⟨n, _, _, tries, ?fired, ?abandoned, ?ended, ?endless⟩
  case fired =>
    rintro rfl
    exact call_of_account admits (account_of_fired none)
  case abandoned =>
    intro time open_yet fires going
    obtain ⟨waits, account⟩ := account_of_abandoned open_yet fires going
    exact call_of_account admits account
  case ended =>
    intro ended attempt open_yet finished in_time
    obtain ⟨waits, account⟩ := account_of_ended open_yet in_time finished
    exact ⟨_, _, returns_ofExcept call.service attempt, call_of_account admits account⟩
  case endless =>
    intro silent unfinished
    apply call_of_endless admits
    rw [account_of_silent silent, Account.ofCourse, unfinished, Option.map_none]

/-- A service that refuses too many requests, asks for two seconds, and answers the next attempt. -/
private def busyRegistry : Call Nat where
  service := "registry"
  operation := "pull"
  script := .ofList [.now (.error (.status 429 (some (Span.ofSeconds 2)) "slow down")), .now (.ok 7)]

/-- A service that knows no such image. -/
private def emptyRegistry : Call Nat where
  service := "registry"
  operation := "pull"
  script := .ofList [.now (.error (.status 404 none "no such image"))]

/-- A call that was given up before it began, the same call given up in the wait for its second attempt, and left
alone; and a call that no other attempt can better. -/
theorem call_by_rules_busyRegistry :
    let inv := Invoker.of {} {}
    let admitted := (inv.circuits.acquire "registry" 0).2.2
    inv.retry.attempts = 4 ∧
      (inv.circuits.acquire "registry" 0).1 = some ⟨0⟩ ∧
      (∃ n starts finish, Tries inv.retry busyRegistry.script 0 n starts finish) ∧
      Settled busyRegistry ⟨0⟩ admitted 0 (inv.call busyRegistry .fired 0) [0] 0
        (.error (.cancelled "registry")) .abandoned ∧
      Settled busyRegistry ⟨0⟩ admitted 0 (inv.call busyRegistry (.firesAfter (Span.ofSeconds 1)) 0) [0]
        (Span.ofSeconds 1) (.error (.cancelled "registry")) .abandoned ∧
      Settled busyRegistry ⟨0⟩ admitted 0 (inv.call busyRegistry .silent 0) [0, Span.ofSeconds 2]
        (Span.ofSeconds 2) (.ok 7) .success ∧
      Settled emptyRegistry ⟨0⟩ admitted 0 (inv.call emptyRegistry .silent 0) [0] 0
        (.error (.status "registry" 404 "no such image")) .failure := by
  intro inv admitted
  obtain ⟨attempts, _, made⟩ := call_by_rules {} {} inv rfl busyRegistry .fired 0
  obtain ⟨n, starts, finish, tries, fired, _⟩ := made ⟨0⟩ rfl
  have given_up : Account.of inv.retry busyRegistry.script busyRegistry.draws (.firesAfter (Span.ofSeconds 1)) 0 none =
      some ⟨[0], [0], Span.ofSeconds 1, .abandoned⟩ := by cbv
  have left_alone : Account.of inv.retry busyRegistry.script busyRegistry.draws .silent 0 none =
      some ⟨[0, Span.ofSeconds 2], [0], Span.ofSeconds 2, .value 7⟩ := by cbv
  have refused : Account.of inv.retry emptyRegistry.script emptyRegistry.draws .silent 0 none =
      some ⟨[0], [], 0, .failed (.status 404 none "no such image")⟩ := by cbv
  exact ⟨attempts, rfl, ⟨n, starts, finish, tries⟩, fired rfl, call_of_account rfl given_up,
    call_of_account rfl left_alone, call_of_account rfl refused⟩

end HostControl.Invocation
