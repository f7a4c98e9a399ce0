/-
Module: HostControl.Proofs.Control.Disclosure
Purpose: What audit records and responses disclose of the addresses of callers: the prefix and nothing else. Two
  courses of the control plane and its audit trail whose callers are alike but for the rest of their addresses have
  the same journal, with every record in it, and the same reactions.
Main exports: Context.Alike, withContext_alike, check_alike, recorded_alike, run_alike, Audit.Entry,
  Entry.toEvent_alike, Move, Reaction, course, Move.Alike, take_alike, course_alike, records_disclose_prefix
-/
import HostControl.Proofs.Control.Floor
import HostControl.Proofs.Net.Masking
import Mathlib.Data.List.Forall2

namespace HostControl

/-- Two contexts that differ at most in what a prefix leaves out of the address. -/
structure Context.Alike (a b : Context) : Prop where
  actor : a.actor = b.actor
  address : a.address.map Address.masked = b.address.map Address.masked
  userAgent : a.userAgent = b.userAgent
  correlationId : a.correlationId = b.correlationId

variable {a b : Context}

/-! ### Events -/

namespace Audit

namespace Event

/-- An event takes no more than the prefix of the address from a context. -/
theorem withContext_alike (alike : a.Alike b) (e : Event) : e.withContext a = e.withContext b := by
  rw [withContext, withContext, alike.address, alike.userAgent, alike.correlationId]

theorem request_alike (alike : a.Alike b) (operation resource : String) (error : Option String) (elapsed : Span) :
    request a operation resource error elapsed = request b operation resource error elapsed := by
  rw [request, request, alike.actor, withContext_alike alike]

theorem rateLimit_alike (alike : a.Alike b) (scope : String) (limit : Nat) :
    rateLimit a scope limit = rateLimit b scope limit := by
  rw [rateLimit, rateLimit, alike.actor, withContext_alike alike]

theorem authFailure_alike (alike : a.Alike b) (reason : String) : authFailure a reason = authFailure b reason := by
  rw [authFailure, authFailure, alike.actor, withContext_alike alike]

end Event

/-- What is said of an event after its beginning. -/
inductive Making where
  | withContext (ctx : Context)
  | failed (error : String)
  | outcome (error : Option String)
  | detail (name : String) (value : Json)
  | took (elapsed : Span)

def Making.apply : Making → Event → Event
  | .withContext ctx => Event.withContext ctx
  | .failed error => Event.failed error
  | .outcome error => Event.outcome error
  | .detail name value => Event.detail name value
  | .took elapsed => Event.took elapsed

/-- A call of the audit trail: with an event that was made by hand, or for one of the kinds of events. -/
inductive Entry where
  | event (action actor resource : String) (makings : List Making)
  | request (ctx : Context) (operation resource : String) (error : Option String) (elapsed : Span)
  | integration (service operation : String) (error : Option String) (elapsed : Span)
  | tokenRefresh (service : String) (error : Option String)
  | transition (service source target : String)
  | rateLimit (ctx : Context) (scope : String) (limit : Nat)
  | authFailure (ctx : Context) (reason : String)

namespace Entry

/-- The event that a call of the trail records. -/
def toEvent : Entry → Event
  | .event action actor resource makings => makings.foldl (fun e making => making.apply e) { action, actor, resource }
  | .request ctx operation resource error elapsed => .request ctx operation resource error elapsed
  | .integration service operation error elapsed => .integration service operation error elapsed
  | .tokenRefresh service error => .tokenRefresh service error
  | .transition service source target => .transition service source target
  | .rateLimit ctx scope limit => .rateLimit ctx scope limit
  | .authFailure ctx reason => .authFailure ctx reason

end Entry

/-- Two parts of the making of an event that are alike but for the address in a context. -/
inductive Making.Alike : Making → Making → Prop
  | same (making : Making) : Alike making making
  | withContext {a b : Context} (alike : a.Alike b) : Alike (.withContext a) (.withContext b)

/-- Two calls of the audit trail that are alike but for the addresses in their contexts. -/
inductive Entry.Alike : Entry → Entry → Prop
  | same (entry : Entry) : Alike entry entry
  | event {action actor resource : String} {makings others : List Making}
      (alike : List.Forall₂ Making.Alike makings others) :
    Alike (.event action actor resource makings) (.event action actor resource others)
  | request {a b : Context} {operation resource : String} {error : Option String} {elapsed : Span}
      (alike : a.Alike b) :
    Alike (.request a operation resource error elapsed) (.request b operation resource error elapsed)
  | rateLimit {a b : Context} {scope : String} {limit : Nat} (alike : a.Alike b) :
    Alike (.rateLimit a scope limit) (.rateLimit b scope limit)
  | authFailure {a b : Context} {reason : String} (alike : a.Alike b) :
    Alike (.authFailure a reason) (.authFailure b reason)

theorem Making.apply_alike {making other : Making} (alike : making.Alike other) (e : Event) :
    making.apply e = other.apply e := by
  cases alike with
  | same => rfl
  | withContext alike => exact Event.withContext_alike alike e

theorem Making.foldl_alike {makings others : List Making} (alike : List.Forall₂ Making.Alike makings others)
    (e : Event) :
    makings.foldl (fun e making => making.apply e) e = others.foldl (fun e making => making.apply e) e := by
  induction alike generalizing e with
  | nil => rfl
  | cons first rest ih => rw [List.foldl_cons, List.foldl_cons, Making.apply_alike first, ih]

theorem Entry.toEvent_alike {entry other : Entry} (alike : entry.Alike other) : entry.toEvent = other.toEvent := by
  cases alike with
  | same => rfl
  | event alike => exact Making.foldl_alike alike _
  | request alike => exact Event.request_alike alike _ _ _ _
  | rateLimit alike => exact Event.rateLimit_alike alike _ _
  | authFailure alike => exact Event.authFailure_alike alike _

end Audit

/-! ### Components -/

namespace Admission.Controller

theorem denialEvents_alike (alike : a.Alike b) : denialEvents a = denialEvents b := by
  funext decision
  rw [denialEvents, denialEvents, Audit.Event.rateLimit_alike alike]

/-- A tier is asked for a caller, and told the caller's context, for the record only. -/
theorem check_alike (alike : a.Alike b) (tier : Tier) (clock : Clock) (answers : Cache.Answers) (c : Controller) :
    c.check a tier clock answers = c.check b tier clock answers := by
  rw [check, check, denialEvents_alike alike]

end Admission.Controller

namespace Workload.Controller

theorem recorded_alike (alike : a.Alike b) (action target : String) (grace : Option Span) (r : Run Unit) :
    recorded a action target grace r = recorded b action target grace r := by
  simp only [recorded, alike.actor, Audit.Event.withContext_alike alike]

end Workload.Controller

/-! ### Operations -/

namespace Control

/-- Two callers with the same credential and contexts that are alike. -/
structure Caller.Alike (caller other : Caller) : Prop where
  context : caller.context.Alike other.context
  credential : caller.credential = other.credential

namespace Session

variable {caller other : Caller}

theorem chargeTier_alike (alike : a.Alike b) (tier : Admission.Tier) (around : Surroundings) (s : Session) :
    s.chargeTier a tier around = s.chargeTier b tier around := by
  rw [chargeTier, chargeTier, Admission.Controller.check_alike alike]

theorem charge_alike (alike : a.Alike b) (around : Surroundings) (tiers : List Admission.Tier) (s : Session) :
    charge a around tiers s = charge b around tiers s := by
  induction tiers generalizing s with
  | nil => rfl
  | cons tier rest ih =>
    rw [charge, charge, chargeTier_alike alike]
    simp only [ih]

theorem recordRequest_alike (alike : caller.Alike other) (op : Operation) (error : Option String) (began : Span)
    (s : Session) : s.recordRequest caller op error began = s.recordRequest other op error began := by
  rw [recordRequest, recordRequest, Audit.Event.request_alike alike.context]

theorem perform_alike (alike : caller.Alike other) (op : Operation) (around : Surroundings) (s : Session) :
    s.perform caller op around = s.perform other op around := by
  have recorded := Workload.Controller.recorded_alike alike.context
  cases op with
  | startContainer | stopContainer | restartContainer =>
    simp only [perform, Workload.Controller.start, Workload.Controller.stop, Workload.Controller.restart, recorded]
  | addEntry | removeEntry => simp only [perform, alike.context.actor]
  | _ => rfl

/-- An operation for a caller comes to what it comes to for one who is alike, and leaves the same session. -/
theorem run_alike (alike : caller.Alike other) (op : Operation) (around : Surroundings) (s : Session) :
    s.run caller op around = s.run other op around := by
  have fault : credentialFault caller = credentialFault other := by
    rw [credentialFault, credentialFault, alike.credential]
  simp only [run, charge_alike alike.context, recordRequest_alike alike, perform_alike alike, alike.credential, fault,
    Audit.Event.authFailure_alike alike.context]

end Session

/-! ### Courses of the control plane and the trail -/

/-- What can happen next: an operation, something beside the pipeline, a call of a service outside, time that passes,
or a call of the audit trail. -/
inductive Move (α : Type) where
  | run (caller : Caller) (op : Operation) (around : Surroundings)
  | maintain (around : Surroundings)
  | serve
  | live
  | ready (around : Surroundings)
  | invoke (call : Invocation.Call α) (token : Invocation.Token)
  | wait (d : Span)
  | record (entry : Audit.Entry)

/-- What is told to whoever made a move. -/
inductive Reaction (α : Type) where
  | response (response : Response)
  | lost (fault : Admission.ArithmeticFault)
  | upkeep (upkeep : Session.Upkeep)
  | standing (good : Bool)
  | reply (reply : Option (Invocation.Reply α))
  | silent

variable {α : Type}

/-- Makes a move. A limiter may have no answer. -/
def Move.take (s : Session) : Move α → Except Admission.ArithmeticFault (Reaction α × Session)
  | .run caller op around => (s.run caller op around).map fun (response, next) => (.response response, next)
  | .maintain around =>
    let (upkeep, next) := s.maintain around
    .ok (.upkeep upkeep, next)
  | .serve => .ok (.silent, s.serve)
  | .live => .ok (.standing s.live, s)
  | .ready around =>
    let (good, next) := s.ready around
    .ok (.standing good, next)
  | .invoke call token =>
    let (reply, next) := s.invoke call token
    .ok (.reply reply, next)
  | .wait d => .ok (.silent, s.forward d)
  | .record entry => .ok (.silent, s.record [entry.toEvent])

/-- The reactions to moves, one after the other, and the session in the end. A limiter without an answer ends the
course. -/
def course : List (Move α) → Session → List (Reaction α) × Session
  | [], s => ([], s)
  | move :: later, s =>
    match move.take s with
    | .error fault => ([.lost fault], s)
    | .ok (reaction, next) =>
      let (reactions, last) := course later next
      (reaction :: reactions, last)

/-- Two moves that are alike but for the addresses in their contexts. -/
inductive Move.Alike : Move α → Move α → Prop
  | same (move : Move α) : Alike move move
  | run {caller other : Caller} {op : Operation} {around : Surroundings} (alike : caller.Alike other) :
    Alike (.run caller op around) (.run other op around)
  | record {entry other : Audit.Entry} (alike : entry.Alike other) : Alike (.record entry) (.record other)

theorem Move.take_alike {move other : Move α} (alike : move.Alike other) (s : Session) :
    move.take s = other.take s := by
  cases alike with
  | same => rfl
  | run alike => rw [take, take, Session.run_alike alike]
  | record alike => rw [take, take, Audit.Entry.toEvent_alike alike]

/-- Moves that are alike one by one have the same course. -/
theorem course_alike {moves others : List (Move α)} (alike : List.Forall₂ Move.Alike moves others) (s : Session) :
    course moves s = course others s := by
  induction alike generalizing s with
  | nil => rfl
  | cons first rest ih =>
    rw [course, course, Move.take_alike first]
    simp only [ih]

/-- Records disclose the prefix of a caller's address and nothing else of it.

Two addresses have the same prefix in records exactly if both are known as IPv4 addresses, mapped ones included, and
agree in their first 16 bits, or both are other IPv6 addresses and agree in their first 48 bits; no prefix reads like
that of an address that is not known. In every course of operations, other work of the control plane and calls of the
audit trail, whoever is served in place of others that differ from them only behind the prefixes of their addresses
gets the same reactions, and the journal, with every audit record, and all else is the same in the end. -/
theorem records_disclose_prefix :
    (∀ a b : Address, a.masked = b.masked ↔ a.SamePrefix b) ∧ (∀ a : Address, a.masked ≠ Audit.unknownAddress) ∧
    ∀ (α : Type) (moves others : List (Move α)) (s : Session), List.Forall₂ Move.Alike moves others →
      course moves s = course others s :=
  ⟨Address.masked_eq_iff, Address.masked_ne_unknown, fun _ _ _ s alike => course_alike alike s⟩

/-- One who asks for a sweep without a credential and is later told of for it. -/
def visit (a b : Context) : List (Move Unit) :=
  [.run ⟨a, none⟩ .cleanupExpired silence, .wait Span.second, .record (.authFailure b "no credential")]

/-- A caller at 10.20.30.40 in one course is at ::ffff:10.20.1.2 in the other, and one at 2001:db8:1::1 is at
2001:db8:1:ffff::2. -/
theorem records_disclose_prefix_moved :
    let near : Context := ⟨"ops", some (.v4 0x0a141e28#32), none, "c-1"⟩
    let far : Context := ⟨"ops", some (.v6 0xffff0a140102#128), none, "c-1"⟩
    let host : Context := ⟨"ops", some (.v6 0x20010db8000100000000000000000001#128), none, "c-2"⟩
    let guest : Context := ⟨"ops", some (.v6 0x20010db80001ffff0000000000000002#128), none, "c-2"⟩
    List.Forall₂ Move.Alike (visit near host) (visit far guest) ∧
      course (visit near host) desk = course (visit far guest) desk ∧
      (course (visit near host) desk).2.journal.length = 5 := by
  intro near far host guest
  have ipv4 : near.Alike far := ⟨rfl, congrArg some ((Address.masked_eq_iff _ _).2 (by decide)), rfl, rfl⟩
  have ipv6 : host.Alike guest := ⟨rfl, congrArg some ((Address.masked_eq_iff _ _).2 (by decide)), rfl, rfl⟩
  have alike : List.Forall₂ Move.Alike (visit near host) (visit far guest) :=
    .cons (.run ⟨ipv4, rfl⟩) (.cons (.same _) (.cons (.record (.authFailure ipv6)) .nil))
  exact ⟨alike, records_disclose_prefix.2.2 Unit _ _ desk alike, by decide +kernel⟩

end Control

end HostControl
