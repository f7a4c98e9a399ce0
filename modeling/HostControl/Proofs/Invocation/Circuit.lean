/-
Module: HostControl.Proofs.Invocation.Circuit
Purpose: What one question for a permit and one reported outcome can do to a circuit. Either the circuit
  stays in its state, its generation and the time since which it is open, or it goes along one of four
  edges to another state and begins a new generation.
Main exports: CircuitState.Edge, Circuit.Stays, Circuit.Moves, signal_ends, acquire_cases, acquire_ends,
  record_of_stale, record_ends, Circuit.OpenSince
-/
import HostControl.Invocation.Circuit

namespace HostControl.Invocation

/-! ### The edges between the states -/

/-- The changes of state that there are: a closed circuit trips, an open one goes half-open, and a trial
call closes it or opens it again. -/
inductive CircuitState.Edge : CircuitState → CircuitState → Prop where
  | trip : Edge .closed .opened
  | cool : Edge .opened .halfOpen
  | recover : Edge .halfOpen .closed
  | relapse : Edge .halfOpen .opened

theorem CircuitState.Edge.ne {source target : CircuitState} (edge : Edge source target) :
    target ≠ source := by
  cases edge <;> intro same <;> cases same

/-- A signal leaves a circuit in its state or sends it along an edge. -/
theorem CircuitState.next_cases (state : CircuitState) (s : Signal) (tripped : Bool) :
    state.next s tripped = state ∨ Edge state (state.next s tripped) := by
  cases state with
  | closed =>
      cases s with
      | success => exact .inl rfl
      | failure =>
          cases tripped
          · exact .inl rfl
          · exact .inr .trip
      | cooldownElapsed => exact .inl rfl
  | opened =>
      cases s with
      | success => exact .inl rfl
      | failure => exact .inl rfl
      | cooldownElapsed => exact .inr .cool
  | halfOpen =>
      cases s with
      | success => exact .inr .recover
      | failure => exact .inr .relapse
      | cooldownElapsed => exact .inl rfl

namespace Circuit

variable {rules : CircuitRules} {c after : Circuit} {now : Span}

/-! ### Signals -/

/-- A circuit that goes to another state begins a new generation with an empty window. -/
def moved (target : CircuitState) (now : Span) (c : Circuit) : Circuit :=
  { c.resetWindow now with
    state := target
    generation := Word.following c.generation
    openedAt := if target = .opened then some now else none }

/-- The circuit keeps its state, its generation and the time since which it is open. -/
structure Stays (c after : Circuit) : Prop where
  state : after.state = c.state
  generation : after.generation = c.generation
  openedAt : after.openedAt = c.openedAt

/-- The circuit goes along an edge and begins a new generation. It is open from then on if it opens. -/
structure Moves (now : Span) (c after : Circuit) : Prop where
  edge : c.state.Edge after.state
  generation : after.generation = Word.following c.generation
  openedAt : after.openedAt = if after.state = .opened then some now else none

theorem Stays.trans {d : Circuit} (first : Stays c d) (second : Stays d after) : Stays c after where
  state := second.state.trans first.state
  generation := second.generation.trans first.generation
  openedAt := second.openedAt.trans first.openedAt

/-- What a circuit keeps before it moves does not matter for the move. -/
theorem Moves.of_stays {d : Circuit} (first : Stays c d) (second : Moves now d after) :
    Moves now c after where
  edge := first.state ▸ second.edge
  generation := first.generation ▸ second.generation
  openedAt := second.openedAt

theorem moves_moved {target : CircuitState} (edge : c.state.Edge target) :
    Moves now c (c.moved target now) where
  edge := edge
  generation := rfl
  openedAt := rfl

/-- A signal does nothing, or moves the circuit and reports it. -/
theorem signal_ends (rules : CircuitRules) (s : Signal) (now : Span) (c : Circuit) :
    (c.state.next s (c.tripped rules) = c.state ∧ c.signal rules s now = (c, none)) ∨
    ∃ target, c.state.next s (c.tripped rules) = target ∧ c.state.Edge target ∧
      c.signal rules s now = (c.moved target now, some ⟨c.state, target⟩) := by
  unfold signal
  rcases CircuitState.next_cases c.state s (c.tripped rules) with same | edge
  · exact .inl ⟨same, if_pos same⟩
  · exact .inr ⟨_, rfl, edge, if_neg edge.ne⟩

/-! ### Questions for a permit -/

/-- A call counted in. -/
def admitted (c : Circuit) : Circuit :=
  { c with
    trialsAdmitted := if c.state = .halfOpen then Word.count32 c.trialsAdmitted else c.trialsAdmitted
    requestsInWindow := Word.count32 c.requestsInWindow
    totalRequests := Word.count64 c.totalRequests }

/-- A call counted as refused. -/
def refused (c : Circuit) : Circuit := { c with rejected := Word.count64 c.rejected }

theorem grant_eq (rules : CircuitRules) (c : Circuit) :
    c.grant rules = if c.hasRoom rules then (some ⟨c.generation⟩, c.admitted) else (none, c.refused) :=
  rfl

theorem stays_admitted (c : Circuit) : Stays c c.admitted := ⟨rfl, rfl, rfl⟩

theorem stays_refused (c : Circuit) : Stays c c.refused := ⟨rfl, rfl, rfl⟩

theorem stays_renew (rules : CircuitRules) (now : Span) (c : Circuit) : Stays c (c.renew rules now) := by
  unfold renew
  split
  · exact ⟨rfl, rfl, rfl⟩
  · exact ⟨rfl, rfl, rfl⟩

/-- Only a closed circuit begins a new window, and a closed one has room in any case. -/
theorem hasRoom_renew (rules : CircuitRules) (now : Span) (c : Circuit) :
    (c.renew rules now).hasRoom rules = c.hasRoom rules := by
  unfold renew windowOver
  cases stands : c.state with
  | closed =>
      split
      · simp [hasRoom, resetWindow, stands]
      · rfl
  | opened => rfl
  | halfOpen => rfl

theorem renew_of_full (full : c.hasRoom rules = false) : c.renew rules now = c := by
  unfold renew windowOver
  cases stands : c.state with
  | closed => simp [hasRoom, stands] at full
  | opened => rfl
  | halfOpen => rfl

/-- Only an open circuit goes half-open. -/
theorem opened_of_cooled (cooled : c.cooled rules now = true) : c.state = .opened := by
  rw [Circuit.cooled, Bool.and_eq_true, decide_eq_true_eq] at cooled
  exact cooled.1

/-- A circuit that is asked for a permit goes half-open and gives one, or gives one as it is, or refuses
it. -/
theorem acquire_cases (rules : CircuitRules) (now : Span) (c : Circuit) :
    (c.cooled rules now = true ∧ c.acquire rules now =
      (some ⟨Word.following c.generation⟩, some ⟨.opened, .halfOpen⟩,
        (c.moved .halfOpen now).admitted)) ∨
    (c.cooled rules now = false ∧ c.hasRoom rules = true ∧ c.acquire rules now =
      (some ⟨c.generation⟩, none, (c.renew rules now).admitted)) ∨
    (c.cooled rules now = false ∧ c.hasRoom rules = false ∧ c.acquire rules now =
      (none, none, c.refused)) := by
  unfold acquire cool
  by_cases cooled : c.cooled rules now = true
  · have stands := opened_of_cooled cooled
    have half : c.signal rules .cooldownElapsed now =
        (c.moved .halfOpen now, some ⟨.opened, .halfOpen⟩) := by
      rcases signal_ends rules .cooldownElapsed now c with ⟨same, _⟩ | ⟨_, rfl, _, done⟩
      · rw [stands] at same
        cases same
      · rw [done, stands]
        rfl
    have room : ((c.moved .halfOpen now).renew rules now).hasRoom rules = true := by
      rw [hasRoom_renew]
      simpa [hasRoom, moved, resetWindow] using rules.trialCalls_pos
    refine .inl ⟨cooled, ?_⟩
    simp only [cooled, if_true, half, grant_eq, room]
    rfl
  · have kept : c.cooled rules now = false := by simpa using cooled
    have same := (stays_renew rules now c).generation
    simp only [kept, grant_eq, hasRoom_renew]
    by_cases room : c.hasRoom rules = true
    · exact .inr (.inl ⟨trivial, room, by simp [room, same]⟩)
    · have full : c.hasRoom rules = false := by simpa using room
      exact .inr (.inr ⟨trivial, full, by simp [full, renew_of_full full]⟩)

/-- A question for a permit keeps the circuit where it is, or lets an open one go half-open. -/
theorem acquire_ends (rules : CircuitRules) (now : Span) (c : Circuit) :
    (Stays c (c.acquire rules now).2.2 ∧ (c.acquire rules now).2.1 = none) ∨
    (Moves now c (c.acquire rules now).2.2 ∧
      (c.acquire rules now).2.1 = some ⟨c.state, (c.acquire rules now).2.2.state⟩) := by
  rcases acquire_cases rules now c with ⟨cooled, same⟩ | ⟨_, _, same⟩ | ⟨_, _, same⟩
  · have stands := opened_of_cooled cooled
    rw [same]
    have moves : Moves now c (c.moved .halfOpen now) := moves_moved (stands ▸ .cool)
    refine .inr ⟨⟨moves.edge, moves.generation, moves.openedAt⟩, ?_⟩
    rw [stands]
    rfl
  · rw [same]
    exact .inl ⟨(stays_renew rules now c).trans (stays_admitted _), rfl⟩
  · rw [same]
    exact .inl ⟨stays_refused c, rfl⟩

/-- A permit carries the generation of the circuit that gave it, and no open circuit gives one. -/
theorem generation_of_permit {permit : Permit} (given : (c.acquire rules now).1 = some permit) :
    permit.generation = (c.acquire rules now).2.2.generation ∧
      (c.acquire rules now).2.2.state ≠ .opened := by
  rcases acquire_cases rules now c with ⟨_, same⟩ | ⟨_, room, same⟩ | ⟨_, _, same⟩
  · rw [same] at given ⊢
    cases given
    refine ⟨rfl, ?_⟩
    intro stands
    cases stands
  · rw [same] at given ⊢
    cases given
    have kept := (stays_renew rules now c).trans (stays_admitted _)
    refine ⟨kept.generation.symm, ?_⟩
    rw [kept.state]
    intro stands
    simp [hasRoom, stands] at room
  · rw [same] at given
    cases given

/-! ### Reported outcomes -/

theorem stays_tally (outcome : Outcome) (c : Circuit) : Stays c (c.tally outcome) := by
  cases outcome <;> exact ⟨rfl, rfl, rfl⟩

/-- Counting an outcome changes nothing but two of the totals. -/
theorem tally_eq (outcome : Outcome) (c : Circuit) :
    ∃ successes failures,
      c.tally outcome = { c with totalSuccesses := successes, totalFailures := failures } := by
  cases outcome with
  | success => exact ⟨_, _, rfl⟩
  | failure => exact ⟨_, _, rfl⟩
  | abandoned => exact ⟨_, _, rfl⟩

/-- An outcome of another generation counts in the totals only. -/
theorem record_of_stale {permit : Permit} (stale : permit.generation ≠ c.generation)
    (outcome : Outcome) :
    c.record rules permit outcome now = (c.tally outcome, none) := by
  have other : permit.generation ≠ (c.tally outcome).generation := by
    rwa [(stays_tally outcome c).generation]
  rw [record]
  exact if_neg other

theorem record_of_current {permit : Permit} (current : permit.generation = c.generation)
    (outcome : Outcome) :
    c.record rules permit outcome now = (c.tally outcome).judge rules outcome now := by
  have same : permit.generation = (c.tally outcome).generation := by
    rwa [(stays_tally outcome c).generation]
  rw [record]
  exact if_pos same

/-- The end of a call keeps a circuit where it is, or moves it. An open circuit stays open. -/
theorem signal_outcome_ends (rules : CircuitRules) {s : Signal} (ended : s ≠ .cooldownElapsed)
    (now : Span) (c : Circuit) :
    (Stays c (c.signal rules s now).1 ∧ (c.signal rules s now).2 = none) ∨
    (c.state ≠ .opened ∧ Moves now c (c.signal rules s now).1 ∧
      (c.signal rules s now).2 = some ⟨c.state, (c.signal rules s now).1.state⟩) := by
  rcases signal_ends rules s now c with ⟨_, same⟩ | ⟨target, next, edge, done⟩
  · rw [same]
    exact .inl ⟨⟨rfl, rfl, rfl⟩, rfl⟩
  · rw [done]
    refine .inr ⟨?_, moves_moved edge, rfl⟩
    intro stands
    rw [stands] at next edge
    cases edge
    cases s with
    | success => cases next
    | failure => cases next
    | cooldownElapsed => exact ended rfl

/-- An outcome that is judged keeps the circuit where it is, or moves it. An open circuit stays open. -/
theorem judge_ends (rules : CircuitRules) (outcome : Outcome) (now : Span) (c : Circuit) :
    (Stays c (c.judge rules outcome now).1 ∧ (c.judge rules outcome now).2 = none) ∨
    (c.state ≠ .opened ∧ Moves now c (c.judge rules outcome now).1 ∧
      (c.judge rules outcome now).2 = some ⟨c.state, (c.judge rules outcome now).1.state⟩) := by
  cases outcome with
  | success =>
      rcases @signal_outcome_ends rules .success nofun now
        { c with consecutiveSuccesses := Word.count32 c.consecutiveSuccesses, consecutiveFailures := 0 }
        with ⟨stays, none⟩ | ⟨ended, moves, some⟩
      · exact .inl ⟨⟨stays.state, stays.generation, stays.openedAt⟩, none⟩
      · exact .inr ⟨ended, ⟨moves.edge, moves.generation, moves.openedAt⟩, some⟩
  | failure =>
      rcases @signal_outcome_ends rules .failure nofun now
        { c with consecutiveFailures := Word.count32 c.consecutiveFailures, consecutiveSuccesses := 0 }
        with ⟨stays, none⟩ | ⟨ended, moves, some⟩
      · exact .inl ⟨⟨stays.state, stays.generation, stays.openedAt⟩, none⟩
      · exact .inr ⟨ended, ⟨moves.edge, moves.generation, moves.openedAt⟩, some⟩
  | abandoned =>
      refine .inl ⟨?_, rfl⟩
      simp only [judge]
      split
      · exact ⟨rfl, rfl, rfl⟩
      · exact ⟨rfl, rfl, rfl⟩

/-- A reported outcome keeps the circuit where it is, or moves it. Only an outcome of the present
generation moves it, and never out of the open state. -/
theorem record_ends (rules : CircuitRules) (permit : Permit) (outcome : Outcome) (now : Span)
    (c : Circuit) :
    (Stays c (c.record rules permit outcome now).1 ∧
      (c.record rules permit outcome now).2 = none) ∨
    (permit.generation = c.generation ∧ c.state ≠ .opened ∧
      Moves now c (c.record rules permit outcome now).1 ∧
      (c.record rules permit outcome now).2 =
        some ⟨c.state, (c.record rules permit outcome now).1.state⟩) := by
  by_cases current : permit.generation = c.generation
  · rw [record_of_current current]
    have counted := stays_tally outcome c
    rcases judge_ends rules outcome now (c.tally outcome) with ⟨stays, none⟩ | ⟨ended, moves, some⟩
    · exact .inl ⟨counted.trans stays, none⟩
    · rw [counted.state] at ended some
      exact .inr ⟨current, ended, moves.of_stays counted, some⟩
  · rw [record_of_stale current]
    exact .inl ⟨stays_tally outcome c, rfl⟩

/-- A failed trial call opens a half-open circuit again. -/
theorem record_failure_of_halfOpen {permit : Permit} (current : permit.generation = c.generation)
    (stands : c.state = .halfOpen) :
    (c.record rules permit .failure now).1.state = .opened := by
  rw [record_of_current current, judge]
  rcases signal_ends rules .failure now
    { c.tally .failure with
      consecutiveFailures := Word.count32 (c.tally .failure).consecutiveFailures
      consecutiveSuccesses := 0 } with ⟨same, _⟩ | ⟨target, next, _, done⟩
  · simp only [(stays_tally .failure c).state, stands] at same
    cases same
  · rw [done]
    simp only [(stays_tally .failure c).state, stands] at next
    exact next.symm

/-! ### The cooldown -/

/-- The circuit is open, and has been since a given time. -/
structure OpenSince (opening : Span) (c : Circuit) : Prop where
  state : c.state = .opened
  openedAt : c.openedAt = some opening

theorem OpenSince.of_stays {opening : Span} (since : OpenSince opening c) (stays : Stays c after) :
    OpenSince opening after where
  state := stays.state.trans since.state
  openedAt := stays.openedAt.trans since.openedAt

/-- A circuit that opens is open from then on. -/
theorem Moves.openSince (moves : Moves now c after) (opens : after.state = .opened) :
    OpenSince now after where
  state := opens
  openedAt := by rw [moves.openedAt, if_pos opens]

theorem OpenSince.cooled_eq {opening : Span} (since : OpenSince opening c) :
    c.cooled rules now = decide (rules.cooldown ≤ now - opening) := by
  rw [cooled, since.state, since.openedAt]
  rfl

/-- An open circuit refuses every call until its cooldown is over. -/
theorem OpenSince.acquire_before {opening : Span} (since : OpenSince opening c)
    (warm : now - opening < rules.cooldown) : c.acquire rules now = (none, none, c.refused) := by
  rcases acquire_cases rules now c with ⟨cooled, _⟩ | ⟨_, room, _⟩ | ⟨_, _, refused⟩
  · rw [since.cooled_eq, decide_eq_true_eq] at cooled
    exact absurd warm (Nat.not_lt.2 cooled)
  · simp [hasRoom, since.state] at room
  · exact refused

/-- The first call after the cooldown is let through by a half-open circuit. -/
theorem OpenSince.acquire_after {opening : Span} (since : OpenSince opening c)
    (cold : rules.cooldown ≤ now - opening) :
    c.acquire rules now = (some ⟨Word.following c.generation⟩, some ⟨.opened, .halfOpen⟩,
      (c.moved .halfOpen now).admitted) := by
  rcases acquire_cases rules now c with ⟨_, given⟩ | ⟨warm, _⟩ | ⟨warm, _⟩
  · exact given
  · rw [since.cooled_eq, decide_eq_false_iff_not] at warm
    exact absurd cold warm
  · rw [since.cooled_eq, decide_eq_false_iff_not] at warm
    exact absurd cold warm

end Circuit

end HostControl.Invocation
