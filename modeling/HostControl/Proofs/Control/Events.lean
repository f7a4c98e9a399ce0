/-
Module: HostControl.Proofs.Control.Events
Purpose: What the parts of the pipeline write into the journal. A tier that is asked has the cache count for itself
  and records a denial, nothing else. What an operation records behind the gate are events of its component, which
  differ from those that the pipeline records itself.
Main exports: Tier.label_inj, CountsFor.tier_eq, check_other, Effect.OfBody, Effect.eventsOf, Effect.Uncharged,
  chargeTier_tells, perform_body
-/
import HostControl.Proofs.Admission.Fallback
import HostControl.Proofs.Control.Effects

namespace HostControl

/-! ### What a check tells -/

theorem Admission.Tier.label_inj {tier other : Tier} (same : tier.label = other.label) : tier = other := by
  cases tier <;> cases other <;> first | rfl | simp [label] at same

namespace Admission.Controller

variable {ctx : Context} {tier other : Tier} {clock : Clock} {answers : Cache.Answers} {c next : Controller}
  {ruling : Ruling} {command : Cache.Command}

/-- The cache counts a request for one tier only. -/
theorem CountsFor.tier_eq (counts : CountsFor tier command) (counts' : CountsFor other command) :
    tier = other := by
  apply Classical.byContradiction
  intro apart
  obtain ⟨now, rfl | ⟨seconds, rfl⟩⟩ := counts
  · obtain ⟨later, same | ⟨_, same⟩⟩ := counts'
    · exact Ask.windowKey_ne apart now later (Cache.Command.increment.inj same)
    · cases same
  · obtain ⟨later, same | ⟨_, same⟩⟩ := counts'
    · cases same
    · exact Ask.windowKey_ne apart now later (Cache.Command.expire.inj same).1

/-- A check leaves the bucket of the other tier alone. -/
theorem check_other (done : c.check ctx tier clock answers = .ok (ruling, next)) (apart : other ≠ tier) :
    next.bucket other = c.bucket other := by
  have same := @Ask.serve_other ⟨ctx, tier, clock, answers⟩ other apart c
  rwa [Ask.serve, done] at same

end Admission.Controller

/-! ### Events of the components -/

namespace Access.Registry

variable {now : Instant} {fault : Option WriteFault} {action : String}

/-- A commit leaves the events that it was given, or tells that the attempt has failed. -/
theorem commit_action {α : Type} {next : Lists} {attempt : Audit.Event} {value : α} {events : List Audit.Event}
    {r : Registry} (tried : attempt.action = action) (told : ∀ e ∈ events, e.action = action) :
    ∀ e ∈ (r.commit next now fault attempt value events).events, e.action = action := by
  unfold commit
  cases written : r.place.write (ProxyFile.render r.middleware (next.liveRanges now) now) fault with
  | ok place =>
    simp only [written]
    exact told
  | error f =>
    simp only [written]
    intro e member
    rw [List.mem_singleton.1 member]
    exact tried

theorem add_action (kind : ListKind) (pattern description addedBy : String) (expiresAt : Option Instant)
    (now : Instant) (fault : Option WriteFault) (r : Registry) :
    ∀ e ∈ (r.add kind pattern description addedBy expiresAt now fault).events,
      e.action = kind.label ++ "_add" := by
  unfold add
  cases made : Entry.make pattern description addedBy now expiresAt with
  | error e => exact nofun
  | ok entry =>
    simp only
    split
    · exact nofun
    · split
      · exact nofun
      · apply commit_action rfl
        intro e member
        rw [List.mem_singleton.1 member]
        cases entry.expiresAt <;> rfl

theorem remove_action (kind : ListKind) (pattern actor : String) (now : Instant) (fault : Option WriteFault)
    (r : Registry) : ∀ e ∈ (r.remove kind pattern actor now fault).events, e.action = kind.label ++ "_remove" := by
  simp only [remove]
  cases found : (r.lists.get kind).find? fun e => e.pattern == Text.trim pattern with
  | none => exact nofun
  | some entry =>
    apply commit_action rfl
    intro e member
    rw [List.mem_singleton.1 member]

theorem cleanup_action (now : Instant) (fault : Option WriteFault) (r : Registry) :
    ∀ e ∈ (r.cleanup now fault).events, e.action = "access_entry_expired" := by
  have expired : ∀ kind (entries : List Entry), ∀ e ∈ entries.map (expiryEvent kind),
      e.action = "access_entry_expired" := by
    intro kind entries e member
    obtain ⟨_, _, rfl⟩ := List.mem_map.1 member
    rfl
  simp only [cleanup]
  split
  · exact nofun
  · apply commit_action rfl
    intro e member
    rcases List.mem_append.1 member with allowed | denied
    · exact expired _ _ e allowed
    · exact expired _ _ e denied

end Access.Registry

namespace Workload.Controller

/-- What is recorded adds one event to those that were there. -/
theorem recorded_action (ctx : Context) (action target : String) (grace : Option Span) {r : Run Unit}
    (quiet : r.events = []) : ∀ e ∈ (recorded ctx action target grace r).events, e.action = action := by
  intro e member
  simp only [recorded, quiet, List.nil_append, List.mem_singleton] at member
  rw [member]
  cases r.result <;> cases grace <;> rfl

theorem events_withReference {α : Type} {P : Audit.Event → Prop} {id : String} {body : String → Run α}
    (events : ∀ name, ∀ e ∈ (body name).events, P e) : ∀ e ∈ (withReference id body).events, P e := by
  unfold withReference
  cases reference id with
  | error e => exact nofun
  | ok name => exact events name

end Workload.Controller

namespace Control

open Admission (Tier Decision)
open Admission.Controller (CountsFor)

/-! ### Effects of the gate and effects behind it -/

namespace Effect

/-- The event that was recorded, if the effect is one. -/
def event? : Effect → Option Audit.Event
  | .audit record => some record.event
  | _ => none

/-- The actions of the events that the pipeline records itself. -/
def pipelineActions : List String := ["http_request", "auth_failure", "rate_limit_exceeded"]

/-- An effect that an operation may have behind the gate: it charges no tier and has the cache count for none, and
it records nothing that the pipeline records itself. -/
def OfBody : Effect → Prop
  | .charge _ => False
  | .command sent => sent = .ping
  | .call _ | .draft _ => True
  | .audit record => record.event.action ∉ pipelineActions

/-! ### Events among effects -/

variable {action : String} {own : List Effect}

/-- The events with an action among effects, in order. -/
def eventsOf (action : String) (own : List Effect) : List Audit.Event :=
  (own.filterMap event?).filter (·.action = action)

/-- A tier is not charged among effects. -/
def Uncharged (tier : Tier) (own : List Effect) : Prop := ∀ d ∈ own.filterMap decision?, d.scope ≠ tier.label

theorem uncharged_append {tier : Tier} {own more : List Effect} :
    Uncharged tier (own ++ more) ↔ Uncharged tier own ∧ Uncharged tier more := by
  rw [Uncharged, List.filterMap_append, List.forall_mem_append]
  rfl

@[simp] theorem eventsOf_append (action : String) (own more : List Effect) :
    eventsOf action (own ++ more) = eventsOf action own ++ eventsOf action more := by
  rw [eventsOf, List.filterMap_append, List.filter_append]
  rfl

@[simp] theorem eventsOf_nil (action : String) : eventsOf action [] = [] := rfl

@[simp] theorem eventsOf_charge (action : String) (decision : Decision) (own : List Effect) :
    eventsOf action (.charge decision :: own) = eventsOf action own := rfl

@[simp] theorem eventsOf_audit (action : String) (record : Audit.Record) (own : List Effect) :
    eventsOf action (.audit record :: own) =
      if record.event.action = action then record.event :: eventsOf action own else eventsOf action own := by
  have told : event? (.audit record) = some record.event := rfl
  rw [eventsOf, List.filterMap_cons_some told, List.filter_cons]
  simp [eventsOf]

@[simp] theorem eventsOf_commands (action : String) (commands : List Cache.Command) :
    eventsOf action (commands.map .command) = [] := by
  induction commands with
  | nil => rfl
  | cons command commands ih => exact ih

/-- What the pipeline records itself is not among the effects of an operation. -/
theorem eventsOf_body (known : action ∈ pipelineActions) (body : ∀ e ∈ own, e.OfBody) : eventsOf action own = [] := by
  apply List.filter_eq_nil_iff.2
  intro event told
  obtain ⟨effect, member, same⟩ := List.mem_filterMap.1 told
  cases effect with
  | audit record =>
    cases same
    have other := body _ member
    rw [decide_eq_true_eq]
    intro equal
    exact other (equal ▸ known)
  | charge | command | call | draft => cases same

theorem charges_body (body : ∀ e ∈ own, e.OfBody) : own.filterMap decision? = [] := by
  apply List.filterMap_eq_nil_iff.2
  intro effect member
  cases effect with
  | charge decision => exact (body _ member).elim
  | command | call | draft | audit => rfl

end Effect

/-! ### The events of the pipeline -/

@[simp] theorem rateLimit_action (ctx : Context) (scope : String) (limit : Nat) :
    (Audit.Event.rateLimit ctx scope limit).action = "rate_limit_exceeded" := rfl

@[simp] theorem authFailure_action (ctx : Context) (reason : String) :
    (Audit.Event.authFailure ctx reason).action = "auth_failure" := rfl

@[simp] theorem request_action (ctx : Context) (operation resource : String) (error : Option String)
    (elapsed : Span) : (Audit.Event.request ctx operation resource error elapsed).action = "http_request" := by
  cases error <;> rfl

/-- The record of a request is no other event of the pipeline. -/
theorem Effect.eventsOf_recorded {action : String} {own : List Effect} {time : Instant} {ctx : Context}
    {operation resource : String} {error : Option String} {elapsed : Span} (other : "http_request" ≠ action)
    (quiet : eventsOf action own = []) :
    eventsOf action (own ++ [.audit ⟨time, .request ctx operation resource error elapsed⟩]) = [] := by
  simp [quiet, other]

namespace Session

variable {s next : Session} {ctx : Context} {tier : Admission.Tier} {around : Surroundings}
  {decision : Admission.Decision}

/-- What a tier that is asked adds to the journal: its commands, its decision, and the event of a denial. -/
theorem chargeTier_tells (done : s.chargeTier ctx tier around = .ok (decision, next)) :
    ∃ (commands : List Cache.Command) (time : Instant), (∀ command ∈ commands, CountsFor tier command) ∧
      next.journal = s.journal ++ (commands.map .command ++ .charge decision ::
        (Admission.Controller.denialEvents ctx decision).map fun e => .audit ⟨time, e⟩) ∧
      ∀ other, other ≠ tier → next.plane.admission.bucket other = s.plane.admission.bucket other := by
  unfold chargeTier at done
  cases checked : s.plane.admission.check ctx tier s.clock around.cache with
  | error fault => simp [checked, bind, Except.bind] at done
  | ok result =>
    obtain ⟨ruling, admission⟩ := result
    simp only [checked, bind, Except.bind, pure, Except.pure, Except.ok.injEq, Prod.mk.injEq] at done
    obtain ⟨rfl, rfl⟩ := done
    obtain ⟨_, counts, events⟩ := Admission.Controller.check_spec checked
    refine ⟨ruling.commands, (s.clock.forward ruling.took).now, counts, ?_,
      fun other => Admission.Controller.check_other checked⟩
    rw [← events]
    simp [record, note, forward]

/-! ### Carrying out -/

variable {P : Effect → Prop}

theorem onWorkload_body {α : Type} (wrap : α → Payload) {body : Workload.Controller → Workload.Run α}
    (told : ∀ c, ∀ e ∈ (body c).events, e.action ∉ Effect.pipelineActions) :
    s.Adds Effect.OfBody (s.onWorkload wrap body).2 :=
  (onWorkload_spec wrap (fun c _ => told c) fun _ _ _ => trivial).2

theorem onRegistry_body {α : Type} (wrap : α → Payload) {change : Access.Registry → Access.Change α}
    (told : ∀ e ∈ (change s.plane.registry).events, e.action ∉ Effect.pipelineActions) :
    s.Adds Effect.OfBody (s.onRegistry wrap change).2 :=
  (onRegistry_spec wrap change (fun _ => told) fun _ => trivial).2

/-- Whatever the operation is, the limiters stay as they are, and what is recorded are events of its component. -/
theorem perform_body (caller : Caller) (op : Operation) (around : Surroundings) (s : Session) :
    (s.perform caller op around).2.plane.admission = s.plane.admission ∧
      s.Adds Effect.OfBody (s.perform caller op around).2 := by
  obtain ⟨⟨registry, same⟩, _⟩ := perform_spec caller op around s
  have kept := congrArg Plane.admission same
  refine ⟨kept, ?_⟩
  have pings : ∀ e ∈ s.plane.monitor.pings.map Effect.command, e.OfBody := by
    intro e member
    obtain ⟨command, sent, rfl⟩ := List.mem_map.1 member
    unfold Health.Monitor.pings at sent
    split at sent
    · exact List.mem_singleton.1 sent
    · cases sent
  cases op with
  | health => exact ((adds_of_journal_eq _ rfl).note pings).forward _
  | primaryHealth => exact (adds_of_journal_eq _ rfl).forward _
  | cacheHealth => exact ((adds_of_journal_eq _ rfl).note pings).forward _
  | limiterStats | cacheStats | circuitStats | listEntries | isAllowed => exact adds_of_journal_eq _ rfl
  | listContainers | platformServices | images | networks | volumes | systemInfo =>
    apply onWorkload_body
    exact fun _ => nofun
  | describeContainer | containerLogs | containerStats =>
    apply onWorkload_body
    intro c
    apply Workload.Controller.events_withReference
    exact fun _ => nofun
  | startContainer | stopContainer | restartContainer =>
    apply onWorkload_body
    intro c
    apply Workload.Controller.events_withReference
    intro name e member
    rw [Workload.Controller.recorded_action _ _ _ _ rfl e member]
    decide
  | addEntry list entry =>
    apply onRegistry_body
    intro e member
    rw [Access.Registry.add_action _ _ _ _ _ _ _ _ e member]
    cases list <;> decide
  | removeEntry list pattern =>
    apply onRegistry_body
    intro e member
    rw [Access.Registry.remove_action _ _ _ _ _ _ e member]
    cases list <;> decide
  | cleanupExpired =>
    apply onRegistry_body
    intro e member
    rw [Access.Registry.cleanup_action _ _ _ e member]
    decide

end Session

end Control

end HostControl
