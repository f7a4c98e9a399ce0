/-
Module: HostControl.Invocation.Course
Purpose: The course of an admitted call: when its attempts begin, and when and how it ends.
Main exports: Script, Course, Course.follow, Token, Token.time?, Ending, Account, Account.of
-/
import HostControl.Invocation.Backoff
import HostControl.Invocation.Circuit
import HostControl.Time.Answer

namespace HostControl.Invocation

variable {α : Type}

/-- What the attempts of a call meet with, by their numbers from zero. -/
abbrev Script (α : Type) := Nat → Answer (Except Failure α)

/-- Attempts that meet with the listed answers in turn; the last one repeats. -/
def Script.ofList (answers : List (Answer (Except Failure α))) : Script α := fun attempt =>
  (answers[min attempt (answers.length - 1)]?).getD .never

/-- The course of a call, in times since it began: the starts of its attempts, the times at which it had
to begin to wait, and its end unless it is still going on. -/
structure Course (α : Type) where
  starts : List Span
  waits : List Span
  finish : Option (Span × Except Failure α)

/-- Whether a time lies behind the horizon up to which a course is followed. -/
def beyond (horizon : Option Span) (time : Span) : Bool := horizon.any (· < time)

/-- The times at which waits begin, with a wait from one time to another in front of them. What takes no
time is no wait. -/
def waitsFrom (start ended : Span) (later : List Span) : List Span :=
  if start < ended then start :: later else later

/-- The course of a call that began at the time `began` of the clock, from the attempt `attempt` on, which
starts at `start`, with `left` more attempts behind it. A draw picks each wait between two attempts. What
lies behind the horizon is left out. -/
def Course.follow (rules : RetryRules) (script : Script α) (draws : Nat → Nat) (began : Span)
    (horizon : Option Span) (left attempt : Nat) (start : Span) : Course α :=
  match script attempt with
  | .never => ⟨[start], [start], none⟩
  | .after delay outcome =>
    let ended := start + delay.wait (began + start)
    let waits := waitsFrom start ended
    if beyond horizon ended then ⟨[start], waits [], none⟩
    else
      match outcome, left with
      | .ok value, _ => ⟨[start], waits [], some (ended, .ok value)⟩
      | .error failure, 0 => ⟨[start], waits [], some (ended, .error failure)⟩
      | .error failure, left + 1 =>
        if failure.retryable then
          let next := ended + Timer.sleep (began + ended) (rules.delay attempt (draws attempt) failure)
          let waits := fun later => waits (waitsFrom ended next later)
          if beyond horizon next then ⟨[start], waits [], none⟩
          else
            let rest := follow rules script draws began horizon left (attempt + 1) next
            { starts := start :: rest.starts, waits := waits rest.waits, finish := rest.finish }
        else ⟨[start], waits [], some (ended, .error failure)⟩
termination_by structural left

/-- The course of a whole call. -/
def Course.of (rules : RetryRules) (script : Script α) (draws : Nat → Nat) (began : Span)
    (horizon : Option Span) : Course α :=
  follow rules script draws began horizon (rules.attempts - 1) 0 0

/-! ### Giving a call up -/

/-- By which a caller gives a call up. -/
inductive Token where
  /-- The caller waits for the end, however late. -/
  | silent
  /-- A timer, set when the call begins. -/
  | timer (delay : Span)
  /-- The caller, some time after the call began. -/
  | firesAfter (time : Span)
  /-- The caller, before the call began. -/
  | fired
deriving DecidableEq, Repr

/-- The time at which a token fires, since the call began at a time of the clock. -/
def Token.time? (began : Span) : Token → Option Span
  | .silent => none
  | .timer delay => some (Timer.sleep began delay)
  | .firesAfter time => some time
  | .fired => some 0

/-- How a call ended. -/
inductive Ending (α : Type) where
  | value (v : α)
  | failed (failure : Failure)
  | abandoned

namespace Ending

def ofExcept : Except Failure α → Ending α
  | .ok v => .value v
  | .error failure => .failed failure

/-- What the service's circuit is told. -/
def outcome : Ending α → Outcome
  | .value _ => .success
  | .failed _ => .failure
  | .abandoned => .abandoned

/-- What the caller is told. -/
def result (service : String) : Ending α → Except CallError α
  | .value v => .ok v
  | .failed failure => .error (.ofFailure service failure)
  | .abandoned => .error (.cancelled service)

end Ending

/-- What became of a call, in times since it began: the starts of its attempts, the times at which it
began to wait, how long it took, and how it ended. -/
structure Account (α : Type) where
  starts : List Span
  waits : List Span
  took : Span
  ending : Ending α

/-- The account of a course that came to its end. -/
def Account.ofCourse (course : Course α) : Option (Account α) :=
  course.finish.map fun (took, result) => ⟨course.starts, course.waits, took, .ofExcept result⟩

/-- The account of a call at a horizon, if the call has ended by then. A token that fires lets stand
what has happened up to that time. An attempt that was begun counts even when the token had fired
before. -/
def Account.of (rules : RetryRules) (script : Script α) (draws : Nat → Nat) (token : Token)
    (began : Span) (horizon : Option Span) : Option (Account α) :=
  if token = .fired then some ⟨[0], [], 0, .abandoned⟩
  else
    match token.time? began with
    | none => ofCourse (Course.of rules script draws began horizon)
    | some time =>
      if beyond horizon time then ofCourse (Course.of rules script draws began horizon)
      else
        let course := Course.of rules script draws began (some time)
        (ofCourse course).or (some ⟨course.starts, course.waits, time, .abandoned⟩)

end HostControl.Invocation
