/-
Module: HostControl.Invocation.Schedule
Purpose: Calls that go on side by side while time passes. What is due at one time happens in the order
  in which the timers for it were set.
Main exports: Schedule, Ended.precedes, Schedule.spawn, Schedule.cancel, Schedule.pass, Schedule.await
-/
import HostControl.Invocation.Invoker
import HostControl.Time.Clock

namespace HostControl.Invocation

variable {α : Type}

/-- An admitted call that goes on. A call in the background has a name, which leads to it until another
call takes the name over. -/
structure Ongoing (α : Type) where
  name : Option String
  call : Call α
  permit : Permit
  began : Span
  token : Token
  reachable : Bool := true

/-- A call that has ended, for its caller. -/
structure Done (α : Type) where
  name : Option String
  reply : Reply α

/-! ### The order of ends -/

/-- A call that has come to its end and is to be settled. -/
structure Ended (α : Type) where
  call : Ongoing α
  account : Account α

namespace Ended

/-- When the call ended. -/
def time (e : Ended α) : Span := e.call.began + e.account.took

/-- The times at which the call began to wait, the last one first. -/
def waits (e : Ended α) : List Span := (e.account.waits.map (e.call.began + ·)).reverse

/-- The turn of a call among those that end with it. An awaited call comes first if it ends by itself,
and last if it is given up; the calls in the background are between. -/
def turn (e : Ended α) : Nat :=
  match e.call.name, e.account.ending with
  | some _, _ => 1
  | none, .abandoned => 2
  | none, _ => 0

/-- Whether waits, the last one first, were begun no later than others. Where the last ones were begun at
one time, those before them decide, and a call that was woken at that time goes before one that was made
then. -/
def begunBy : List Span → List Span → Bool
  | [], others => others.isEmpty
  | _ :: _, [] => true
  | a :: waits, b :: others => a < b || (a == b && begunBy waits others)

/-- Whether a call is settled no later than another one. -/
def precedes (a b : Ended α) : Bool :=
  a.time < b.time || (a.time == b.time &&
    (a.turn < b.turn || (a.turn == b.turn && begunBy a.waits b.waits)))

end Ended

/-! ### Calls side by side -/

/-- Calls under way, in the order in which they began, and the events they have left. -/
structure Schedule (α : Type) where
  clock : Clock
  invoker : Invoker
  ongoing : List (Ongoing α) := []
  journal : List Audit.Record := []

namespace Schedule

/-- Adds events that happened at a time to the journal. -/
def note (time : Span) (events : List Audit.Event) (s : Schedule α) : Schedule α :=
  { s with journal := s.journal ++ events.map fun e => ⟨s.clock.timeAt time, e⟩ }

/-- The account of a call that has ended by a time. -/
def accountBy (time : Option Span) (s : Schedule α) (o : Ongoing α) : Option (Account α) :=
  Account.of s.invoker.retry o.call.script o.call.draws o.token o.began (time.map (· - o.began))

/-- Settles one call that has ended. -/
def settle (s : Schedule α) (e : Ended α) : Done α × Schedule α :=
  let (reply, events, invoker) := s.invoker.settle e.call.call e.call.permit e.account e.time
  (⟨e.call.name, reply⟩, { s with invoker }.note e.time events)

/-- Settles calls one after another. -/
def settleAll (s : Schedule α) : List (Ended α) → List (Done α) × Schedule α
  | [] => ([], s)
  | e :: rest =>
    let (done, s) := s.settle e
    let (more, s) := settleAll s rest
    (done :: more, s)

/-- Settles every call that has ended by a time, each in its turn. -/
def settleBy (time : Span) (s : Schedule α) : List (Done α) × Schedule α :=
  let ended := s.ongoing.filterMap fun o => (s.accountBy (some time) o).map (Ended.mk o)
  let going := s.ongoing.filter fun o => (s.accountBy (some time) o).isNone
  { s with ongoing := going, clock := s.clock.forwardTo time }.settleAll
    (ended.mergeSort Ended.precedes)

/-- Lets a sleep pass. -/
def pass (d : Span) (s : Schedule α) : List (Done α) × Schedule α :=
  s.settleBy (s.clock.elapsed + Timer.sleep s.clock.elapsed d)

/-- Takes a name away from the call that it leads to. -/
def release (name : String) (s : Schedule α) : Schedule α :=
  { s with ongoing := s.ongoing.map fun o =>
      if o.name = some name then { o with reachable := false } else o }

/-- Begins a call that goes on by itself. Its name leads to no other call from now on. -/
def spawn (name : String) (call : Call α) (s : Schedule α) : List (Done α) × Schedule α :=
  let s := s.release name
  let now := s.clock.elapsed
  match s.invoker.enter call now with
  | (.error error, events, invoker) =>
    ([⟨some name, Invoker.refused error⟩], { s with invoker }.note now events)
  | (.ok permit, events, invoker) =>
    let o : Ongoing α := { name := some name, call, permit, began := now, token := .silent }
    ({ s with invoker, ongoing := s.ongoing ++ [o] }.note now events).settleBy now

/-- Gives up the call that a name leads to, if it still goes on. -/
def cancel (name : String) (s : Schedule α) : List (Done α) × Schedule α :=
  let now := s.clock.elapsed
  let ongoing := s.ongoing.map fun o =>
    if o.name = some name && o.reachable then { o with token := .firesAfter (now - o.began) } else o
  { s with ongoing }.settleBy now

/-- Makes a call and waits for its end, while the others go on. There is no reply if the call never
ends. -/
def await (call : Call α) (token : Token) (s : Schedule α) :
    Option (Reply α) × List (Done α) × Schedule α :=
  let now := s.clock.elapsed
  match s.invoker.enter call now with
  | (.error error, events, invoker) =>
    (some (Invoker.refused error), [], { s with invoker }.note now events)
  | (.ok permit, events, invoker) =>
    let o : Ongoing α := { name := none, call, permit, began := now, token }
    let s := { s with invoker, ongoing := s.ongoing ++ [o] }.note now events
    match s.accountBy none o with
    | none => (none, [], s)
    | some account =>
      let (done, s) := s.settleBy (now + account.took)
      ((done.find? (·.name.isNone)).map (·.reply), done.filter (·.name.isSome), s)

end Schedule

end HostControl.Invocation
