/-
Module: HostControl.Proofs.Invocation.Announcements
Purpose: What the audit trail tells of the circuits and of the calls, however many callers there are at once. A
  question for a permit and the report of an outcome are written down before the next of them comes; the event of
  a call that has ended may come later, with events of other calls in between. Read in order, the changes of state
  of a service are a path from the closed state to the present one, and a call that has returned has left one
  event of its own after its changes of state.
Main exports: Stage, Exchange, Exchange.step, Exchange.after, announcement, Path, Tells, Line.Told, Exchange.Sound,
  announcements_tell_path
-/
import HostControl.Proofs.Invocation.Traffic

namespace HostControl.Invocation

variable {α : Type}

/-! ### Calls and the trail -/

/-- Where a call stands. -/
inductive Stage (α : Type) where
  /-- It was let through and goes on. -/
  | going (permit : Permit)
  /-- It has ended, and what it tells at last is still to be written. -/
  | ending (result : Except CallError α) (left : List Audit.Event)
  | returned (result : Except CallError α)
  /-- Its caller has dropped it where it waited. -/
  | dropped

/-- A call, and where it stands. -/
structure Line (α : Type) where
  call : Call α
  stage : Stage α

/-- An invoker, the calls by their numbers, and the trail: the events, each with the number of the call that has
left it, the earliest first. -/
structure Exchange (α : Type) where
  invoker : Invoker
  lines : List (Line α) := []
  trail : List (Nat × Audit.Event) := []

/-- What may happen next: a call comes, its service or its token ends it, its last event is written and it
returns, or its caller drops it. -/
inductive Act (α : Type) where
  | arrive (call : Call α) (now : Span)
  | settle (number : Nat) (account : Account α) (now : Span)
  | finish (number : Nat)
  | drop (number : Nat)

namespace Exchange

/-- A call is at another stage, and leaves events. -/
def moved (number : Nat) (line : Line α) (events : List Audit.Event) (x : Exchange α) : Exchange α :=
  { x with lines := x.lines.set number line, trail := x.trail ++ events.map (number, ·) }

/-- A new call is at its first stage, and leaves events. -/
def joined (line : Line α) (events : List Audit.Event) (x : Exchange α) : Exchange α :=
  { x with lines := x.lines ++ [line], trail := x.trail ++ events.map (x.lines.length, ·) }

/-- What happens next. What a circuit does is written at once; the event of a call that has ended is left for
later. What does not fit where a call stands does nothing. -/
def step (x : Exchange α) : Act α → Exchange α
  | .arrive call now =>
    match x.invoker.enter call now with
    | (.ok permit, events, inv) => joined ⟨call, .going permit⟩ events { x with invoker := inv }
    | (.error error, events, inv) =>
      joined ⟨call, .ending (.error error) events.getLast?.toList⟩ events.dropLast { x with invoker := inv }
  | .settle number account now =>
    match x.lines[number]? with
    | some ⟨call, .going permit⟩ =>
      let (reply, events, inv) := x.invoker.settle call permit account now
      moved number ⟨call, .ending reply.result events.getLast?.toList⟩ events.dropLast { x with invoker := inv }
    | _ => x
  | .finish number =>
    match x.lines[number]? with
    | some ⟨call, .ending result left⟩ => moved number ⟨call, .returned result⟩ left x
    | _ => x
  | .drop number =>
    match x.lines[number]? with
    | some ⟨call, .going _⟩ => moved number ⟨call, .dropped⟩ [] x
    | _ => x

/-- What acts lead to, the latest first. -/
def after (start : Exchange α) : List (Act α) → Exchange α
  | [] => start
  | act :: past => (after start past).step act

/-- The events that a call has left, the earliest first. -/
def eventsOf (number : Nat) (trail : List (Nat × Audit.Event)) : List Audit.Event :=
  (trail.filter (·.1 = number)).map (·.2)

end Exchange

/-! ### Kinds of events -/

/-- The names by which the trail tells the states of a circuit. -/
def stateName : CircuitState → String
  | .closed => "closed"
  | .opened => "open"
  | .halfOpen => "half_open"

/-- The event for a change of state of a service: from which state it went, and to which. -/
def announcement (service : String) (t : Transition) : Audit.Event where
  action := "circuit_breaker_state_change"
  actor := "system"
  resource := service
  details := [("from", .str (stateName t.source)), ("to", .str (stateName t.target))]

/-- Whether an event tells of a change of state of a service. -/
def isChange (service : String) (e : Audit.Event) : Bool :=
  e.action = "circuit_breaker_state_change" && e.resource = service

/-- Whether an event tells of a call. -/
def isIntegration (e : Audit.Event) : Bool := "integration_".toList.isPrefixOf e.action.toList

section

variable {service name : String} {t : Transition} {call : Call α} {result : Except CallError α} {took : Span}

theorem transition_eq (service : String) (t : Transition) :
    Audit.Event.transition service t.source.label t.target.label = announcement service t := by
  obtain ⟨source, target⟩ := t
  cases source <;> cases target <;> rfl

theorem transitionEvents_eq (service : String) (t : Option Transition) :
    Invoker.transitionEvents service t = t.toList.map (announcement service) := by
  cases t with
  | none => rfl
  | some t => exact congrArg ([·]) (transition_eq service t)

theorem isChange_announcement : isChange name (announcement service t) = true ↔ service = name := by
  rw [isChange, Bool.and_eq_true_iff, decide_eq_true_iff, decide_eq_true_iff]
  exact and_iff_right rfl

theorem isIntegration_announcement : isIntegration (announcement service t) = false := by
  simp only [isIntegration, announcement]
  decide

theorem action_integrationEvent : (Invoker.integrationEvent call result took).action =
    "integration_" ++ call.service ++ "_" ++ call.operation := by
  cases result <;> rfl

theorem isIntegration_integrationEvent : isIntegration (Invoker.integrationEvent call result took) = true := by
  rw [isIntegration, action_integrationEvent]
  simp

/-- What tells of a call tells of no change of state, whatever the names of its service and its operation. -/
theorem isChange_of_isIntegration {e : Audit.Event} (integration : isIntegration e = true) :
    isChange name e = false := by
  rw [isChange, Bool.and_eq_false_iff]
  refine .inl (decide_eq_false fun same => ?_)
  rw [isIntegration, same] at integration
  exact absurd integration (by decide)

end

/-! ### The path of a circuit -/

/-- Changes of state, the earliest first, that lead from one state to another: each goes along an edge, from the
state to which the one before has led. -/
inductive Path (start : CircuitState) : List Transition → CircuitState → Prop
  | refl : Path start [] start
  | step {past : List Transition} {t : Transition} :
      Path start past t.source → t.source.Edge t.target → Path start (past ++ [t]) t.target

/-- Events tell of the changes of state of a service that have led from the closed state to the present one. -/
def Tells (name : String) (cs : Circuits) (events : List Audit.Event) : Prop :=
  ∃ changes, events.filter (isChange name) = changes.map (announcement name) ∧
    Path .closed changes (cs.of name).state

section

variable {name : String} {cs : Circuits} {events : List Audit.Event}

theorem filter_transitionEvents (service : String) (t : Option Transition) :
    (Invoker.transitionEvents service t).filter (isChange name) =
      if service = name then t.toList.map (announcement name) else [] := by
  rw [transitionEvents_eq]
  split
  · next own =>
    subst own
    refine List.filter_eq_self.2 fun e member => ?_
    obtain ⟨t, _, rfl⟩ := List.mem_map.1 member
    exact isChange_announcement.2 rfl
  · next other =>
    refine List.filter_eq_nil_iff.2 fun e member => ?_
    obtain ⟨t, _, rfl⟩ := List.mem_map.1 member
    exact fun own => other (isChange_announcement.1 own)

/-- A turn of the circuits adds the change of state that it brings about. -/
theorem Tells.take (tells : Tells name cs events) (s : Turn) :
    Tells name (s.take cs).circuits
      (events ++ Invoker.transitionEvents s.move.name (s.take cs).transition) := by
  obtain ⟨changes, told, path⟩ := tells
  rw [Tells, List.filter_append, told, filter_transitionEvents]
  rcases take_ends s cs name with ⟨stays, quiet⟩ | ⟨own, moves, changed⟩
  · refine ⟨changes, ?_, stays.state ▸ path⟩
    split
    · next own => rw [quiet own, Option.toList_none, List.map_nil, List.append_nil]
    · exact List.append_nil _
  · refine ⟨changes ++ [⟨(cs.of name).state, ((s.take cs).circuits.of name).state⟩], ?_, .step path moves.edge⟩
    rw [if_pos own, changed, List.map_append]
    rfl

/-- What tells of calls adds nothing. -/
theorem Tells.append (tells : Tells name cs events) {more : List Audit.Event}
    (integration : ∀ e ∈ more, isIntegration e = true) : Tells name cs (events ++ more) := by
  obtain ⟨changes, told, path⟩ := tells
  have none_of_them : more.filter (isChange name) = [] := by
    refine List.filter_eq_nil_iff.2 fun e member => ?_
    rw [isChange_of_isIntegration (integration e member)]
    exact Bool.false_ne_true
  exact ⟨changes, by rw [List.filter_append, told, none_of_them, List.append_nil], path⟩

/-- The state of a circuit is the one that is reported; a service that was never called counts as closed. -/
theorem state_of (name : String) (cs : Circuits) :
    (cs.of name).state = ((cs.report? name).map (·.state)).getD .closed := by
  unfold Circuits.of Circuits.get Circuits.report?
  cases cs.byName.find? name <;> rfl

end

/-! ### The events of one call -/

/-- What a call has left in the trail, by the stage at which it is: the changes of state that it has brought about,
and when it has returned one event more. -/
inductive Line.Told : Line α → List Audit.Event → Prop
  | going {call : Call α} {permit : Permit} (changes : List Transition) (few : changes.length ≤ 1) :
      Told ⟨call, .going permit⟩ (changes.map (announcement call.service))
  | ending {call : Call α} {result : Except CallError α} (changes : List Transition) (took : Span)
      (few : changes.length ≤ 2) :
      Told ⟨call, .ending result [Invoker.integrationEvent call result took]⟩
        (changes.map (announcement call.service))
  | returned {call : Call α} {result : Except CallError α} (changes : List Transition) (took : Span)
      (few : changes.length ≤ 2) :
      Told ⟨call, .returned result⟩
        (changes.map (announcement call.service) ++ [Invoker.integrationEvent call result took])
  | dropped {call : Call α} (changes : List Transition) (few : changes.length ≤ 1) :
      Told ⟨call, .dropped⟩ (changes.map (announcement call.service))

/-- The circuits tell of their changes of state, and every call has left what its stage says. -/
structure Exchange.Sound (x : Exchange α) : Prop where
  tells : ∀ name, Tells name x.invoker.circuits (x.trail.map (·.2))
  told : ∀ (number : Nat) line, x.lines[number]? = some line → line.Told (eventsOf number x.trail)
  numbered : ∀ e ∈ x.trail, e.1 < x.lines.length

namespace Exchange

variable {x : Exchange α} {number : Nat} {line : Line α} {events : List Audit.Event} {inv : Invoker}

theorem map_snd_numbered (number : Nat) (events : List Audit.Event) :
    (events.map fun e => (number, e)).map (·.2) = events := by
  rw [List.map_map]
  exact List.map_id events

theorem eventsOf_append_self (number : Nat) (trail : List (Nat × Audit.Event)) (events : List Audit.Event) :
    eventsOf number (trail ++ events.map (number, ·)) = eventsOf number trail ++ events := by
  have own : (events.map fun e => (number, e)).filter (·.1 = number) = events.map (number, ·) :=
    List.filter_eq_self.2 fun e member => by
      obtain ⟨_, _, rfl⟩ := List.mem_map.1 member
      exact decide_eq_true rfl
  rw [eventsOf, List.filter_append, own, List.map_append, map_snd_numbered, eventsOf]

theorem eventsOf_append_other {other : Nat} (apart : number ≠ other) (trail : List (Nat × Audit.Event))
    (events : List Audit.Event) :
    eventsOf other (trail ++ events.map (number, ·)) = eventsOf other trail := by
  have none_of_them : (events.map fun e => (number, e)).filter (·.1 = other) = [] :=
    List.filter_eq_nil_iff.2 fun e member => by
      obtain ⟨_, _, rfl⟩ := List.mem_map.1 member
      simpa using apart
  rw [eventsOf, List.filter_append, none_of_them, List.append_nil, eventsOf]

/-- A call that comes to another stage leaves the other calls alone. -/
theorem Sound.moved (sound : Sound x) (known : number < x.lines.length)
    (tells : ∀ name, Tells name inv.circuits (x.trail.map (·.2) ++ events))
    (told : line.Told (eventsOf number x.trail ++ events)) :
    Sound (moved number line events { x with invoker := inv }) where
  tells name := by
    rw [Exchange.moved, List.map_append, map_snd_numbered]
    exact tells name
  told other there found := by
    simp only [Exchange.moved] at found ⊢
    by_cases own : number = other
    · subst own
      rw [List.getElem?_set_self known] at found
      cases found
      rw [eventsOf_append_self]
      exact told
    · rw [List.getElem?_set_ne own] at found
      rw [eventsOf_append_other own]
      exact sound.told other there found
  numbered e member := by
    simp only [Exchange.moved, List.length_set] at member ⊢
    rcases List.mem_append.1 member with before | latest
    · exact sound.numbered e before
    · obtain ⟨_, _, rfl⟩ := List.mem_map.1 latest
      exact known

/-- A new call leaves the other calls alone. -/
theorem Sound.joined (sound : Sound x)
    (tells : ∀ name, Tells name inv.circuits (x.trail.map (·.2) ++ events))
    (told : line.Told events) : Sound (joined line events { x with invoker := inv }) where
  tells name := by
    rw [Exchange.joined, List.map_append, map_snd_numbered]
    exact tells name
  told other there found := by
    simp only [Exchange.joined] at found ⊢
    have nothing : eventsOf x.lines.length x.trail = [] := by
      rw [eventsOf, List.map_eq_nil_iff, List.filter_eq_nil_iff]
      intro e member
      simpa using Nat.ne_of_lt (sound.numbered e member)
    by_cases own : x.lines.length = other
    · subst own
      rw [List.getElem?_concat_length] at found
      cases found
      rw [eventsOf_append_self, nothing]
      exact told
    · have within := (List.getElem?_eq_some_iff.1 found).1
      rw [List.length_append, List.length_singleton] at within
      rw [List.getElem?_append_left (by omega)] at found
      rw [eventsOf_append_other own]
      exact sound.told other there found
  numbered e member := by
    simp only [Exchange.joined, List.length_append] at member ⊢
    rcases List.mem_append.1 member with before | latest
    · exact Nat.lt_succ_of_lt (sound.numbered e before)
    · obtain ⟨_, _, rfl⟩ := List.mem_map.1 latest
      exact Nat.lt_succ_self _

end Exchange

/-! ### Steps and runs -/

namespace Invoker

/-- A call that comes asks its circuit. It is let through, or it ends with the event of its refusal. -/
theorem enter_cases (call : Call α) (now : Span) (inv : Invoker) {s : Turn}
    (asks : s = ⟨.acquire call.service, now⟩) :
    (∃ permit, (s.take inv.circuits).permit = some permit ∧
      inv.enter call now = (.ok permit, transitionEvents call.service (s.take inv.circuits).transition,
        { inv with circuits := (s.take inv.circuits).circuits })) ∨
    ((s.take inv.circuits).permit = none ∧
      inv.enter call now = (.error (.circuitOpen call.service),
        transitionEvents call.service (s.take inv.circuits).transition ++
          [integrationEvent call (.error (.circuitOpen call.service)) 0],
        { inv with circuits := (s.take inv.circuits).circuits })) := by
  subst asks
  cases given : (inv.circuits.acquire call.service now).1 with
  | some permit => exact .inl ⟨permit, given, by simp only [enter, given, Turn.take]⟩
  | none => exact .inr ⟨given, by simp only [enter, given, Turn.take]⟩

/-- A call that has ended reports to its circuit, and its own event comes last. -/
theorem settle_eq (call : Call α) (permit : Permit) (account : Account α) (now : Span) (inv : Invoker) {s : Turn}
    (reports : s = ⟨.record call.service permit account.ending.outcome, now⟩) :
    inv.settle call permit account now =
      (⟨account.ending.result call.service, account.starts, account.took⟩,
        transitionEvents call.service (s.take inv.circuits).transition ++
          [integrationEvent call (account.ending.result call.service) account.took],
        { inv with circuits := (s.take inv.circuits).circuits }) := by
  subst reports
  rfl

end Invoker

theorem Line.Told.of_going {call : Call α} {permit : Permit} {own : List Audit.Event}
    (told : Told ⟨call, .going permit⟩ own) :
    ∃ changes : List Transition, changes.length ≤ 1 ∧ own = changes.map (announcement call.service) := by
  cases told with
  | going changes few => exact ⟨changes, few, rfl⟩

theorem Line.Told.of_ending {call : Call α} {result : Except CallError α} {left own : List Audit.Event}
    (told : Told ⟨call, .ending result left⟩ own) :
    ∃ (changes : List Transition) (took : Span), changes.length ≤ 2 ∧
      left = [Invoker.integrationEvent call result took] ∧ own = changes.map (announcement call.service) := by
  cases told with
  | ending changes took few => exact ⟨changes, took, few, rfl, rfl⟩

theorem Line.Told.of_returned {call : Call α} {result : Except CallError α} {own : List Audit.Event}
    (told : Told ⟨call, .returned result⟩ own) :
    ∃ (changes : List Transition) (took : Span), changes.length ≤ 2 ∧
      own = changes.map (announcement call.service) ++ [Invoker.integrationEvent call result took] := by
  cases told with
  | returned changes took few => exact ⟨changes, took, few, rfl⟩

namespace Exchange

theorem length_toList_le (t : Option Transition) : t.toList.length ≤ 1 := by
  cases t with
  | none => exact Nat.zero_le 1
  | some t => exact Nat.le_refl 1

variable {x : Exchange α}

theorem Sound.arrive (sound : Sound x) (call : Call α) (now : Span) : Sound (x.step (.arrive call now)) := by
  have turn := fun name => (sound.tells name).take ⟨.acquire call.service, now⟩
  have few := length_toList_le (Turn.take ⟨.acquire call.service, now⟩ x.invoker.circuits).transition
  rcases Invoker.enter_cases call now x.invoker rfl with ⟨permit, _, entered⟩ | ⟨_, entered⟩
  · simp only [step, entered]
    refine sound.joined turn ?_
    rw [transitionEvents_eq]
    exact .going _ few
  · simp only [step, entered, List.dropLast_concat, List.getLast?_concat, Option.toList_some]
    refine sound.joined turn ?_
    rw [transitionEvents_eq]
    exact .ending _ 0 (Nat.le_succ_of_le few)

theorem Sound.settle (sound : Sound x) (number : Nat) (account : Account α) (now : Span) :
    Sound (x.step (.settle number account now)) := by
  rw [step]
  split
  · next call permit found =>
    obtain ⟨changes, few, own⟩ := (sound.told number _ found).of_going
    have turn := fun name => (sound.tells name).take ⟨.record call.service permit account.ending.outcome, now⟩
    have one := length_toList_le
      (Turn.take ⟨.record call.service permit account.ending.outcome, now⟩ x.invoker.circuits).transition
    simp only [Invoker.settle_eq call permit account now x.invoker rfl, List.dropLast_concat,
      List.getLast?_concat, Option.toList_some]
    refine sound.moved (List.getElem?_eq_some_iff.1 found).1 turn ?_
    rw [own, transitionEvents_eq, ← List.map_append]
    refine .ending _ account.took ?_
    rw [List.length_append]
    omega
  · exact sound

theorem Sound.finish (sound : Sound x) (number : Nat) : Sound (x.step (.finish number)) := by
  rw [step]
  split
  · next call result left found =>
    obtain ⟨changes, took, few, rfl, own⟩ := (sound.told number _ found).of_ending
    refine sound.moved (List.getElem?_eq_some_iff.1 found).1 (fun name => (sound.tells name).append ?_) ?_
    · intro e member
      rw [List.mem_singleton.1 member]
      exact isIntegration_integrationEvent
    · rw [own]
      exact .returned changes took few
  · exact sound

theorem Sound.drop (sound : Sound x) (number : Nat) : Sound (x.step (.drop number)) := by
  rw [step]
  split
  · next call permit found =>
    obtain ⟨changes, few, own⟩ := (sound.told number _ found).of_going
    refine sound.moved (List.getElem?_eq_some_iff.1 found).1 (fun name => ?_) ?_
    · rw [List.append_nil]
      exact sound.tells name
    · rw [List.append_nil, own]
      exact .dropped changes few
  · exact sound

theorem Sound.step (sound : Sound x) (act : Act α) : Sound (x.step act) := by
  cases act with
  | arrive call now => exact sound.arrive call now
  | settle number account now => exact sound.settle number account now
  | finish number => exact sound.finish number
  | drop number => exact sound.drop number

/-- However the calls go, trail and circuits agree. -/
theorem Sound.after (sound : Sound x) (acts : List (Act α)) : Sound (x.after acts) := by
  induction acts with
  | nil => exact sound
  | cons act past ih => exact ih.step act

theorem sound_start (rules : CircuitRules) (retry : RetryRules) :
    Sound (α := α) { invoker := { circuits := { rules }, retry } } where
  tells _ := ⟨[], rfl, .refl⟩
  told := nofun
  numbered := nofun

/-! ### One call by itself -/

section

variable {line next : Line α} {events more : List Audit.Event} {inv : Invoker}

theorem getElem?_joined (line : Line α) (events : List Audit.Event) (x : Exchange α) :
    (joined line events x).lines[x.lines.length]? = some line := List.getElem?_concat_length

/-- A new call that comes to another stage at once. -/
theorem moved_joined (line next : Line α) (events more : List Audit.Event) (inv : Invoker) (x : Exchange α) :
    moved x.lines.length next more { joined line events x with invoker := inv } =
      joined next (events ++ more) { x with invoker := inv } := by
  simp [moved, joined]

/-- A new call that has ended returns. -/
theorem step_finish_joined (call : Call α) (result : Except CallError α) (events left : List Audit.Event)
    (x : Exchange α) :
    (joined ⟨call, .ending result left⟩ events x).step (.finish x.lines.length) =
      joined ⟨call, .returned result⟩ (events ++ left) x := by
  rw [step, getElem?_joined]
  exact moved_joined _ _ events left x.invoker x

/-- A new call that goes on ends. -/
theorem step_settle_joined (call : Call α) (permit : Permit) (account : Account α) (now : Span)
    (events : List Audit.Event) (x : Exchange α) {reply : Reply α} {more : List Audit.Event}
    (settled : x.invoker.settle call permit account now = (reply, more, inv)) :
    (joined ⟨call, .going permit⟩ events x).step (.settle x.lines.length account now) =
      joined ⟨call, .ending reply.result more.getLast?.toList⟩ (events ++ more.dropLast)
        { x with invoker := inv } := by
  have same : (joined ⟨call, .going permit⟩ events x).invoker.settle call permit account now =
      (reply, more, inv) := settled
  rw [step, getElem?_joined]
  simp only [same]
  exact moved_joined _ _ events more.dropLast inv x

theorem dropLast_append_getLast (events : List Audit.Event) :
    events.dropLast ++ events.getLast?.toList = events := by
  rcases List.eq_nil_or_concat events with rfl | ⟨init, last, rfl⟩
  · rfl
  · rw [List.concat_eq_append, List.dropLast_concat, List.getLast?_concat, Option.toList_some]

end

/-- What is told of one call by itself is what is told of it here, where nothing happens in between: it comes, it
ends if it does, and it returns. -/
theorem after_call (x : Exchange α) (call : Call α) (token : Token) (now : Span) :
    (∀ reply happenings inv, x.invoker.call call token now = (some reply, happenings, inv) →
      ∃ acts, x.after acts =
        joined ⟨call, .returned reply.result⟩ (happenings.map (·.2)) { x with invoker := inv }) ∧
    ∀ happenings inv, x.invoker.call call token now = (none, happenings, inv) →
      ∃ acts permit, x.after acts =
        joined ⟨call, .going permit⟩ (happenings.map (·.2)) { x with invoker := inv } := by
  have texts : ∀ (time : Span) (events : List Audit.Event),
      (events.map fun e => ((time, e) : Invoker.Happening)).map (·.2) = events := by
    intro time events
    rw [List.map_map]
    exact List.map_id events
  cases entered : x.invoker.enter call now with
  | mk permit rest =>
    obtain ⟨events, inv⟩ := rest
    cases permit with
    | error error =>
      simp only [Invoker.call, entered]
      refine ⟨?_, nofun⟩
      rintro _ _ _ ⟨⟩
      refine ⟨[.finish x.lines.length, .arrive call now], ?_⟩
      rw [after, after, after, step, entered]
      simp only
      rw [step_finish_joined _ _ _ _ { x with invoker := inv }, dropLast_append_getLast, texts]
      rfl
    | ok permit =>
      simp only [Invoker.call, entered]
      cases ends : Account.of inv.retry call.script call.draws token now none with
      | none =>
        refine ⟨nofun, ?_⟩
        rintro _ _ ⟨⟩
        refine ⟨[.arrive call now], permit, ?_⟩
        rw [after, after, step, entered, texts]
      | some account =>
        refine ⟨?_, nofun⟩
        cases settled : inv.settle call permit account (now + account.took) with
        | mk reply rest =>
          obtain ⟨more, inv'⟩ := rest
          rintro _ _ _ ⟨⟩
          refine ⟨[.finish x.lines.length, .settle x.lines.length account (now + account.took),
            .arrive call now], ?_⟩
          rw [after, after, after, after, step, entered]
          simp only
          rw [step_settle_joined call permit account (now + account.took) events { x with invoker := inv } settled,
            step_finish_joined _ _ _ _ { x with invoker := inv' }, List.append_assoc, dropLast_append_getLast,
            List.map_append, texts, texts, settled]

end Exchange

/-! ### What the trail tells -/

/-- The text of the error that a call returned, if it returned one. -/
def errorText : Except CallError α → Option String
  | .ok _ => none
  | .error e => some e.message

/-- An event tells that a call has returned, and with what error if there was one. -/
structure Notes (call : Call α) (result : Except CallError α) (e : Audit.Event) : Prop where
  action : e.action = "integration_" ++ call.service ++ "_" ++ call.operation
  resource : e.resource = call.service
  error : e.error = errorText result
  success : e.success = (errorText result).isNone

theorem notes_integrationEvent (call : Call α) (result : Except CallError α) (took : Span) :
    Notes call result (Invoker.integrationEvent call result took) := by
  cases result with
  | ok value => exact ⟨rfl, rfl, rfl, rfl⟩
  | error e => exact ⟨rfl, rfl, rfl, rfl⟩

/-- The events of changes of state tell of no call. -/
theorem countP_announcements (service : String) (changes : List Transition) :
    (changes.map (announcement service)).countP isIntegration = 0 := by
  rw [List.countP_eq_zero]
  intro e member
  obtain ⟨t, _, rfl⟩ := List.mem_map.1 member
  rw [isIntegration_announcement]
  exact Bool.false_ne_true

/-- A call has left one event of its own if it has returned, and none before. -/
theorem Line.Told.countP_eq {line : Line α} {own : List Audit.Event} (told : line.Told own) :
    own.countP isIntegration = match line.stage with
      | .returned _ => 1
      | _ => 0 := by
  cases told with
  | going changes few => exact countP_announcements _ changes
  | ending changes took few => exact countP_announcements _ changes
  | returned changes took few =>
    rw [List.countP_append, countP_announcements, List.countP_singleton, isIntegration_integrationEvent]
    rfl
  | dropped changes few => exact countP_announcements _ changes

/-- What the trail tells of circuits and calls, in every interleaving of calls by any number of callers. The changes
of state of a service, read in order, begin at the closed state; each begins where the one before has ended and
goes along one of four edges; and the last one has ended at the state that is reported. A call that has returned
has left exactly one event that tells of calls, after its changes of state, with the text of the error that it
returned, be it of its refusal, of its failure or of being given up; and no other call has left one. A call by
itself is told of in the same way. -/
theorem announcements_tell_path (rules : CircuitRules) (retry : RetryRules) (acts : List (Act α))
    {x : Exchange α} (reached : x = Exchange.after { invoker := { circuits := { rules }, retry } } acts) :
    (∀ name, ∃ changes, (x.trail.map (·.2)).filter (isChange name) = changes.map (announcement name) ∧
      Path .closed changes (((x.invoker.circuits.report? name).map (·.state)).getD .closed)) ∧
    (∀ (number : Nat) line, x.lines[number]? = some line →
      (Exchange.eventsOf number x.trail).countP isIntegration = match line.stage with
        | .returned _ => 1
        | _ => 0) ∧
    (∀ (number : Nat) call result, x.lines[number]? = some ⟨call, .returned result⟩ →
      ∃ (changes : List Transition) (last : Audit.Event), changes.length ≤ 2 ∧
        Exchange.eventsOf number x.trail = changes.map (announcement call.service) ++ [last] ∧
        Notes call result last) ∧
    ∀ call token now,
      (∀ reply happenings inv, x.invoker.call call token now = (some reply, happenings, inv) →
        ∃ acts, x.after acts =
          .joined ⟨call, .returned reply.result⟩ (happenings.map (·.2)) { x with invoker := inv }) ∧
      ∀ happenings inv, x.invoker.call call token now = (none, happenings, inv) →
        ∃ acts permit, x.after acts =
          .joined ⟨call, .going permit⟩ (happenings.map (·.2)) { x with invoker := inv } := by
  have sound : x.Sound := reached ▸ (Exchange.sound_start rules retry).after acts
  refine ⟨fun name => ?_, fun number line found => (sound.told number line found).countP_eq, ?_,
    fun call token now => x.after_call call token now⟩
  · obtain ⟨changes, told, path⟩ := sound.tells name
    exact ⟨changes, told, state_of name x.invoker.circuits ▸ path⟩
  · intro number call result found
    obtain ⟨changes, took, few, own⟩ := (sound.told number _ found).of_returned
    exact ⟨changes, _, few, own, notes_integrationEvent call result took⟩

/-- A call to a service that counts as lost after one failure. -/
def lookUp : Call Nat where
  service := "crm"
  operation := "get"
  script := fun _ => .never

/-- The account of a call whose connection was reset. -/
def brokenOff : Account Nat := ⟨[0], [], 0, .failed (.transport "reset")⟩

/-- Two calls at once fail, the second one after the circuit has opened; a third one closes it when it has cooled. The
latest act stands first. -/
def overlapping : List (Act Nat) :=
  [.finish 2, .settle 2 ⟨[0], [], 0, .value 1⟩ (Span.ofSeconds 31), .finish 1, .arrive lookUp (Span.ofSeconds 31),
    .finish 0, .settle 1 brokenOff 2, .settle 0 brokenOff 1, .arrive lookUp 0, .arrive lookUp 0]

/-- An invoker whose circuits open at the first failure and cool for half a minute. -/
def brittle : Invoker := .of { failureThreshold := 1 } { maxAttempts := 1 }

/-- The circuit has changed its state three times and is closed again. The second call brought none of this about,
and has told of its failure. -/
theorem announcements_tell_path_overlapping :
    ∃ x : Exchange Nat, x = .after { invoker := brittle } overlapping ∧
      (∃ changes, changes.length = 3 ∧
        (x.trail.map (·.2)).filter (isChange "crm") = changes.map (announcement "crm") ∧
        Path .closed changes .closed) ∧
      ∃ last, Exchange.eventsOf 1 x.trail = [last] ∧
        Notes lookUp (.error (.transport "crm" "reset")) last := by
  obtain ⟨paths, _, returned, _⟩ := announcements_tell_path brittle.circuits.rules brittle.retry overlapping rfl
  refine ⟨_, rfl, ?_, ?_⟩
  · obtain ⟨changes, told, path⟩ := paths "crm"
    have stands : (((Exchange.after { invoker := brittle } overlapping).invoker.circuits.report? "crm").map
        (·.state)).getD .closed = .closed := by decide +kernel
    have three : (((Exchange.after { invoker := brittle } overlapping).trail.map (·.2)).filter
        (isChange "crm")).length = 3 := by decide +kernel
    refine ⟨changes, ?_, told, stands ▸ path⟩
    rw [← List.length_map (announcement "crm"), ← told]
    exact three
  · obtain ⟨changes, last, _, own, notes⟩ :=
      returned 1 lookUp (.error (.transport "crm" "reset")) rfl
    have one : (Exchange.eventsOf 1 (Exchange.after { invoker := brittle } overlapping).trail).length = 1 := by
      decide +kernel
    have none_of_them : changes = [] := by
      have length := (congrArg List.length own).symm.trans one
      rw [List.length_append, List.length_map, List.length_singleton] at length
      exact List.length_eq_zero_iff.1 (by omega)
    rw [none_of_them] at own
    exact ⟨last, own, notes⟩

end HostControl.Invocation
