/-
Module: HostControl.Proofs.Invocation.Tripping
Purpose: When a closed circuit opens, told from the history of questions and reports alone. It opens with the
  failure that is as many in a row as the rules allow; a row is begun anew when the circuit closes, with a
  success, and with each new window. What was abandoned and what comes with an old permit is left out.
Main exports: Turn.judged?, Circuit.Keeps, ClosedTurn, closedTurn, windowBegan, Renews, streak, Observed,
  observed_after, trips_on_threshold
-/
import HostControl.Proofs.Invocation.Totals

namespace HostControl.Invocation

/-! ### What a turn can do to a closed circuit -/

/-- The outcome that a turn reports on a service with a permit of the present generation of its circuit. -/
def Turn.judged? (name : String) (s : Turn) (cs : Circuits) : Option Outcome :=
  match s.move, cs.byName.find? name with
  | .record called permit outcome, some c =>
      if called = name ∧ permit.generation = c.generation then some outcome else none
  | _, _ => none

namespace Circuit

/-- A closed circuit stays closed in its window, and has counted so many failures in a row. -/
structure Keeps (failures : Nat) (c after : Circuit) : Prop where
  state : after.state = .closed
  failures : after.consecutiveFailures = failures
  windowStarted : after.windowStarted = c.windowStarted
  requests : after.requestsInWindow = c.requestsInWindow

variable {rules : CircuitRules} {c : Circuit} {now : Span} {permit : Permit}

theorem acquire_of_closed (stands : c.state = .closed) :
    c.acquire rules now = (some ⟨c.generation⟩, none, (c.renew rules now).admitted) := by
  rcases acquire_cases rules now c with ⟨cooled, _⟩ | ⟨_, _, given⟩ | ⟨_, full, _⟩
  · exact absurd (stands.symm.trans (opened_of_cooled cooled)) nofun
  · exact given
  · simp [hasRoom, stands] at full

/-- No question closes a circuit. -/
theorem closed_of_acquire (ends : (c.acquire rules now).2.2.state = .closed) : c.state = .closed := by
  rcases acquire_cases rules now c with ⟨_, same⟩ | ⟨_, _, same⟩ | ⟨_, _, same⟩
  · rw [same] at ends
    cases ends
  · rw [same] at ends
    exact (stays_renew rules now c).state.symm.trans ends
  · rw [same] at ends
    exact ends

theorem Keeps.of_tally (stands : c.state = .closed) (outcome : Outcome) :
    Keeps c.consecutiveFailures c (c.tally outcome) := by
  obtain ⟨successes, failures, same⟩ := tally_eq outcome c
  rw [same]
  exact ⟨stands, rfl, rfl, rfl⟩

/-- A success ends the row of failures of a closed circuit. -/
theorem record_success_of_closed (stands : c.state = .closed) (current : permit.generation = c.generation) :
    Keeps 0 c (c.record rules permit .success now).1 := by
  rw [record_of_current current, judge_success]
  have state : (c.tally .success).succeeded.state = .closed := stands
  rcases signal_ends rules .success now (c.tally .success).succeeded with ⟨_, same⟩ | ⟨target, next, edge, _⟩
  · rw [same]
    exact ⟨stands, rfl, rfl, rfl⟩
  · -- A success leads no circuit out of the closed state.
    rw [state] at next edge
    exact absurd next.symm edge.ne

/-- A failure is counted by a closed circuit, and opens it if it is the last one that the rules allow. -/
theorem record_failure_of_closed (stands : c.state = .closed) (current : permit.generation = c.generation) :
    (rules.threshold ≤ Word.count32 c.consecutiveFailures ∧
      (c.record rules permit .failure now).1.state = .opened) ∨
    (Word.count32 c.consecutiveFailures < rules.threshold ∧
      Keeps (Word.count32 c.consecutiveFailures) c (c.record rules permit .failure now).1) := by
  rw [record_of_current current, judge_failure]
  have state : (c.tally .failure).failed.state = .closed := stands
  have trips : (c.tally .failure).failed.tripped rules =
      decide (rules.threshold ≤ Word.count32 c.consecutiveFailures) := rfl
  rcases signal_ends rules .failure now (c.tally .failure).failed with ⟨next, same⟩ | ⟨target, next, edge, done⟩
  · rw [state, trips] at next
    rw [same]
    refine .inr ⟨?_, stands, rfl, rfl, rfl⟩
    simpa [CircuitState.next] using next
  · rw [state, trips] at next
    rw [state] at edge
    rw [done]
    by_cases reached : rules.threshold ≤ Word.count32 c.consecutiveFailures
    · refine .inl ⟨reached, ?_⟩
      rw [← next, CircuitState.next, decide_eq_true reached]
      rfl
    · rw [decide_eq_false reached] at next
      exact absurd next.symm edge.ne

/-- A circuit that a report closes begins with no failures and with a new window. -/
theorem fresh_of_closes (open_ : c.state ≠ .closed) {outcome : Outcome}
    (closes : (c.record rules permit outcome now).1.state = .closed) :
    (c.record rules permit outcome now).1.consecutiveFailures = 0 ∧
      (c.record rules permit outcome now).1.windowStarted = now := by
  have counted := stays_tally outcome c
  by_cases current : permit.generation = c.generation
  · rw [record_of_current current] at closes ⊢
    cases outcome with
    | success =>
        rw [judge_success] at closes ⊢
        rcases signal_ends rules .success now (c.tally .success).succeeded with ⟨_, same⟩ | ⟨_, _, _, done⟩
        · rw [same] at closes
          exact absurd closes open_
        · rw [done]
          exact ⟨rfl, rfl⟩
    | failure =>
        rw [judge_failure] at closes ⊢
        rcases signal_ends rules .failure now (c.tally .failure).failed with ⟨_, same⟩ | ⟨_, _, _, done⟩
        · rw [same] at closes
          exact absurd closes open_
        · rw [done]
          exact ⟨rfl, rfl⟩
    | abandoned =>
        simp only [judge] at closes
        split at closes <;> exact absurd closes open_
  · rw [record_of_stale current] at closes
    exact absurd (counted.state.symm.trans closes) open_

/-- An abandoned call leaves a closed circuit as it is. -/
theorem record_abandoned_of_closed (stands : c.state = .closed) (current : permit.generation = c.generation) :
    Keeps c.consecutiveFailures c (c.record rules permit .abandoned now).1 := by
  have other : (c.tally .abandoned).state ≠ .halfOpen := by
    rw [tally, stands]
    decide
  rw [record_of_current current, judge, if_neg other]
  exact Keeps.of_tally stands .abandoned

end Circuit

/-- What a turn makes of a closed circuit that was called before. A question begins a new window where that is due;
of the reports, those with a permit of the present generation count, unless the call was abandoned. -/
inductive ClosedTurn (rules : CircuitRules) (name : String) (s : Turn) (judged : Option Outcome)
    (c after : Circuit) : Prop where
  | question (asks : s.move = .acquire name) (unjudged : judged = none)
      (renewed : after = (c.renew rules s.now).admitted)
  | idle (other : s.move ≠ .acquire name) (uncounted : judged = none ∨ judged = some .abandoned)
      (keeps : Circuit.Keeps c.consecutiveFailures c after)
  | success (other : s.move ≠ .acquire name) (counted : judged = some .success) (keeps : Circuit.Keeps 0 c after)
  | failure (other : s.move ≠ .acquire name) (counted : judged = some .failure)
      (few : Word.count32 c.consecutiveFailures < rules.threshold)
      (keeps : Circuit.Keeps (Word.count32 c.consecutiveFailures) c after)
  | trip (other : s.move ≠ .acquire name) (counted : judged = some .failure)
      (reached : rules.threshold ≤ Word.count32 c.consecutiveFailures) (opens : after.state = .opened)

theorem judged?_of_other {name : String} {s : Turn} (other : s.move.name ≠ name) (cs : Circuits) :
    s.judged? name cs = none := by
  obtain ⟨move, now⟩ := s
  cases move with
  | acquire called => rfl
  | record called permit outcome =>
      unfold Turn.judged?
      cases cs.byName.find? name with
      | none => rfl
      | some c => exact if_neg fun own => other own.1

theorem judged?_of_unknown {name : String} {cs : Circuits} (unknown : cs.byName.find? name = none) (s : Turn) :
    s.judged? name cs = none := by
  unfold Turn.judged?
  rw [unknown]
  split
  · next known => cases known
  · rfl

theorem judged?_record {name : String} {permit : Permit} {outcome : Outcome} {now : Span} {cs : Circuits}
    {c : Circuit} (known : cs.byName.find? name = some c) :
    (⟨.record name permit outcome, now⟩ : Turn).judged? name cs =
      if permit.generation = c.generation then some outcome else none := by
  simp [Turn.judged?, known]

theorem record_ne_acquire {name called : String} {permit : Permit} {outcome : Outcome} :
    Move.record called permit outcome ≠ .acquire name := by
  intro same
  cases same

theorem closedTurn {name : String} {cs : Circuits} {c : Circuit} (known : cs.byName.find? name = some c)
    (stands : c.state = .closed) (s : Turn) :
    ClosedTurn cs.rules name s (s.judged? name cs) c ((s.take cs).circuits.of name) := by
  by_cases own : s.move.name = name
  · obtain ⟨move, now⟩ := s
    subst own
    cases move with
    | acquire name =>
        simp only [Move.name] at known ⊢
        have found : cs.get name now = c := by rw [Circuits.get, known, Option.getD_some]
        refine .question rfl rfl ?_
        rw [Turn.take, Circuits.of_acquire, found, Circuit.acquire_of_closed stands]
    | record name permit outcome =>
        have other : Move.record name permit outcome ≠ .acquire name := record_ne_acquire
        simp only [Turn.take, Move.name] at known ⊢
        rw [judged?_record known, Circuits.record_of_known known, Circuits.of_set_self]
        by_cases current : permit.generation = c.generation
        · rw [if_pos current]
          cases outcome with
          | success => exact .success other rfl (Circuit.record_success_of_closed stands current)
          | failure =>
              have counted := @Circuit.record_failure_of_closed cs.rules c now permit stands current
              rcases counted with ⟨reached, opens⟩ | ⟨few, keeps⟩
              · exact .trip other rfl reached opens
              · exact .failure other rfl few keeps
          | abandoned => exact .idle other (.inr rfl) (Circuit.record_abandoned_of_closed stands current)
        · rw [if_neg current, Circuit.record_of_stale current]
          exact .idle other (.inl rfl) (Circuit.Keeps.of_tally stands outcome)
  · have other : s.move ≠ .acquire name := fun asks => own (by rw [asks]; rfl)
    rw [Circuits.of_take_of_ne own, judged?_of_other own, Circuits.of_eq_of_find? known]
    exact .idle other (.inl rfl) ⟨stands, rfl, rfl, rfl⟩

/-- A circuit that is closed by a turn begins with no failures and with a new window. No question does that. -/
theorem take_of_closes {name : String} {cs : Circuits} {c : Circuit} {s : Turn}
    (known : cs.byName.find? name = some c) (open_ : c.state ≠ .closed)
    (closes : ((s.take cs).circuits.of name).state = .closed) :
    s.move ≠ .acquire name ∧ ((s.take cs).circuits.of name).consecutiveFailures = 0 ∧
      ((s.take cs).circuits.of name).windowStarted = s.now := by
  by_cases own : s.move.name = name
  · obtain ⟨move, now⟩ := s
    subst own
    cases move with
    | acquire name =>
        simp only [Move.name] at known
        have found : cs.get name now = c := by rw [Circuits.get, known, Option.getD_some]
        simp only [Turn.take, Move.name, Circuits.of_acquire, found] at closes
        exact absurd (Circuit.closed_of_acquire closes) open_
    | record name permit outcome =>
        simp only [Turn.take, Move.name] at known closes ⊢
        rw [Circuits.record_of_known known, Circuits.of_set_self] at closes ⊢
        exact ⟨record_ne_acquire, Circuit.fresh_of_closes open_ closes⟩
  · rw [Circuits.of_take_of_ne own, Circuits.of_eq_of_find? known] at closes
    exact absurd closes open_

/-! ### What the history tells -/

/-- Whether a window that began at a time is over. -/
def CircuitRules.windowEnded (rules : CircuitRules) (now began : Span) : Bool :=
  rules.interval.any fun interval => began + interval ≤ now

section

variable (rules : CircuitRules) (name : String)

/-- The state in which a run leaves the circuit of a service. -/
def stateAfter (run : List Turn) : CircuitState := ((Circuits.after rules run).of name).state

/-- A turn closes the circuit of a service. -/
def Closes (s : Turn) (past : List Turn) : Prop :=
  stateAfter rules name past ≠ .closed ∧ stateAfter rules name (s :: past) = .closed

instance (s : Turn) (past : List Turn) : Decidable (Closes rules name s past) :=
  inferInstanceAs (Decidable (_ ∧ _))

/-- When the present window of a closed circuit began: with the first question, when the circuit was closed, or
with the latest question at which the window before was over. -/
def windowBegan : List Turn → Option Span
  | [] => none
  | s :: past =>
    if Closes rules name s past ∨ s.move = .acquire name ∧ stateAfter rules name past = .closed ∧
        (windowBegan past).all (rules.windowEnded s.now) then some s.now
    else windowBegan past

/-- A question comes to a closed circuit whose window is over. -/
def Renews (s : Turn) (past : List Turn) : Prop :=
  s.move = .acquire name ∧ stateAfter rules name past = .closed ∧
    (windowBegan rules name past).any (rules.windowEnded s.now)

instance (s : Turn) (past : List Turn) : Decidable (Renews rules name s past) :=
  inferInstanceAs (Decidable (_ ∧ _))

/-- How many failures have been reported with permits of the present generation since the circuit was closed, the
latest success so reported, and the beginning of the present window. -/
def streak : List Turn → Nat
  | [] => 0
  | s :: past =>
    let judged := s.judged? name (Circuits.after rules past)
    if Closes rules name s past ∨ Renews rules name s past ∨ judged = some .success then 0
    else if judged = some .failure then streak past + 1
    else streak past

end

section

variable {rules : CircuitRules} {name : String} {s : Turn} {past run : List Turn} {c : Circuit}

theorem stateAfter_of_known (known : (Circuits.after rules run).byName.find? name = some c) :
    stateAfter rules name run = c.state := by
  rw [stateAfter, Circuits.of_eq_of_find? known]

theorem stateAfter_of_unknown (unknown : (Circuits.after rules run).byName.find? name = none) :
    stateAfter rules name run = .closed := by
  rw [stateAfter, Circuits.of, Circuits.get, unknown]
  rfl

theorem not_closes (stands : stateAfter rules name past = .closed) : ¬ Closes rules name s past :=
  fun closes => closes.1 stands

/-- The window of a closed circuit is over when the time since its beginning says so. -/
theorem windowOver_eq (lasting : ∀ interval ∈ rules.interval, 0 < interval) (stands : c.state = .closed)
    (now : Span) : c.windowOver rules now = rules.windowEnded now c.windowStarted := by
  unfold Circuit.windowOver CircuitRules.windowEnded
  rw [stands]
  cases interval : rules.interval with
  | none => rfl
  | some length =>
      have since : ∀ began length now : Nat, 0 < length → (length ≤ now - began ↔ began + length ≤ now) := by
        omega
      simp only [Option.any_some, decide_true, Bool.true_and, decide_eq_decide]
      exact since _ _ _ (lasting length interval)

/-- What a run has made of the circuit of a service agrees with what its history tells. -/
structure Observed (rules : CircuitRules) (name : String) (run : List Turn) : Prop where
  unknown : (Circuits.after rules run).byName.find? name = none →
    windowBegan rules name run = none ∧ streak rules name run = 0
  closed : ∀ c, (Circuits.after rules run).byName.find? name = some c → c.state = .closed →
    windowBegan rules name run = some c.windowStarted ∧ c.consecutiveFailures = streak rules name run ∧
      streak rules name run < rules.threshold

theorem observed_nil (rules : CircuitRules) (name : String) : Observed rules name [] where
  unknown _ := ⟨rfl, rfl⟩
  closed _ known := nomatch known

/-- A turn for another service, or a report on one that was never called, adds nothing to the history. -/
theorem history_of_idle (idle : s.move ≠ .acquire name)
    (unjudged : s.judged? name (Circuits.after rules past) = none)
    (same : stateAfter rules name (s :: past) = stateAfter rules name past) :
    windowBegan rules name (s :: past) = windowBegan rules name past ∧
      streak rules name (s :: past) = streak rules name past := by
  have open_ : ¬ Closes rules name s past := fun closes => closes.1 (same.symm.trans closes.2)
  have kept : ¬ Renews rules name s past := fun renews => idle renews.1
  rw [windowBegan, streak, if_neg (by simp [open_, idle]), if_neg (by simp [open_, kept, unjudged]), unjudged]
  exact ⟨rfl, rfl⟩

/-- What a turn adds to the history of a closed circuit. -/
theorem windowBegan_of_closed {began : Span} (stands : stateAfter rules name past = .closed)
    (window : windowBegan rules name past = some began) (s : Turn) :
    windowBegan rules name (s :: past) = some (if Renews rules name s past then s.now else began) := by
  rw [windowBegan]
  simp only [not_closes stands, Renews, window, Option.all_some, Option.any_some, false_or]
  split <;> rfl

theorem streak_of_closed (stands : stateAfter rules name past = .closed) (s : Turn) :
    streak rules name (s :: past) =
      if Renews rules name s past ∨ s.judged? name (Circuits.after rules past) = some .success then 0
      else if s.judged? name (Circuits.after rules past) = some .failure then streak rules name past + 1
      else streak rules name past := by
  rw [streak]
  simp only [not_closes stands, false_or]

/-- Only a question begins a new window of a closed circuit. -/
theorem not_renews (other : s.move ≠ .acquire name) : ¬ Renews rules name s past := fun renews => other renews.1

theorem windowOver_iff_renews (lasting : ∀ interval ∈ rules.interval, 0 < interval)
    (known : (Circuits.after rules past).byName.find? name = some c) (stands : c.state = .closed)
    (window : windowBegan rules name past = some c.windowStarted) (asks : s.move = .acquire name) :
    c.windowOver rules s.now = true ↔ Renews rules name s past := by
  rw [windowOver_eq lasting stands]
  simp [Renews, asks, (stateAfter_of_known known).trans stands, window]

/-- A service that was called before stays known. -/
theorem find?_take_of_known {cs : Circuits} (known : cs.byName.find? name = some c) (s : Turn) :
    (s.take cs).circuits.byName.find? name = some ((s.take cs).circuits.of name) := by
  have there : ∃ after, (s.take cs).circuits.byName.find? name = some after := by
    by_cases own : s.move.name = name
    · obtain ⟨move, now⟩ := s
      subst own
      cases move with
      | acquire name => exact ⟨_, Table.find?_set_self _ _ _⟩
      | record name permit outcome =>
          simp only [Turn.take, Move.name] at known ⊢
          rw [Circuits.record_of_known known]
          exact ⟨_, Table.find?_set_self _ _ _⟩
    · rw [find?_take_of_ne own]
      exact ⟨c, known⟩
  obtain ⟨after, found⟩ := there
  rw [Circuits.of_eq_of_find? found, found]

theorem find?_take_of_unknown {cs : Circuits} (unknown : cs.byName.find? name = none)
    (idle : s.move ≠ .acquire name) : (s.take cs).circuits.byName.find? name = none := by
  by_cases own : s.move.name = name
  · obtain ⟨move, now⟩ := s
    subst own
    cases move with
    | acquire name => exact absurd rfl idle
    | record name permit outcome =>
        simp only [Turn.take, Move.name] at unknown ⊢
        rw [Circuits.record_of_unknown unknown]
        exact unknown
  · rw [find?_take_of_ne own]
    exact unknown

/-- The first question makes a closed circuit with a new window. -/
theorem first_question {cs : Circuits} (unknown : cs.byName.find? name = none)
    (lasting : ∀ interval ∈ cs.rules.interval, 0 < interval) (now : Span) :
    ((⟨.acquire name, now⟩ : Turn).take cs).circuits.byName.find? name =
      some (Circuit.fresh now).admitted := by
  have found : cs.get name now = Circuit.fresh now := by rw [Circuits.get, unknown, Option.getD_none]
  have kept : (Circuit.fresh now).renew cs.rules now = Circuit.fresh now := by
    rw [Circuit.renew, windowOver_eq lasting rfl, if_neg]
    rw [CircuitRules.windowEnded]
    cases interval : cs.rules.interval with
    | none => simp
    | some length =>
        have longer : now < now + length := Nat.lt_add_of_pos_right (lasting length interval)
        rw [Option.any_some, decide_eq_true_eq]
        exact Nat.not_le.2 longer
  have made : (cs.acquire name now).2.2.byName.find? name = some ((cs.get name now).acquire cs.rules now).2.2 :=
    Table.find?_set_self _ _ _
  rw [found, Circuit.acquire_of_closed rfl, kept] at made
  exact made

/-- One more turn keeps the agreement. -/
theorem Observed.cons (observed : Observed rules name past)
    (lasting : ∀ interval ∈ rules.interval, 0 < interval) (bound : rules.threshold ≤ Word.max32) (s : Turn) :
    Observed rules name (s :: past) := by
  have same := rules_after rules past
  cases known : (Circuits.after rules past).byName.find? name with
  | none =>
      obtain ⟨unbegun, none_yet⟩ := observed.unknown known
      have stands := stateAfter_of_unknown known
      have unjudged := judged?_of_unknown known s
      by_cases asks : s.move = .acquire name
      · obtain ⟨move, now⟩ := s
        cases asks
        have made := first_question known (by rwa [same]) now
        refine ⟨fun unknown => absurd (made.symm.trans unknown) nofun, ?_⟩
        intro c found _
        cases made.symm.trans found
        have kept : ¬ Renews rules name ⟨.acquire name, now⟩ past := fun renews => by
          simp [Renews, unbegun] at renews
        rw [windowBegan, streak, if_pos (.inr ⟨rfl, stands, by simp [unbegun]⟩),
          if_neg (by simp [not_closes stands, kept, unjudged]), if_neg (by simp [unjudged]), none_yet]
        exact ⟨rfl, rfl, rules.threshold_pos⟩
      · have still := find?_take_of_unknown known asks
        obtain ⟨began, row⟩ := history_of_idle asks unjudged ((stateAfter_of_unknown still).trans stands.symm)
        exact ⟨fun _ => ⟨began.trans unbegun, row.trans none_yet⟩,
          fun c found _ => absurd (still.symm.trans found) nofun⟩
  | some c =>
      have after := find?_take_of_known known s
      refine ⟨fun unknown => absurd (after.symm.trans unknown) nofun, ?_⟩
      intro d found closed
      obtain rfl := Option.some.inj (after.symm.trans found)
      by_cases stands : c.state = .closed
      · obtain ⟨began, row, below⟩ := observed.closed c known stands
        have shut := (stateAfter_of_known known).trans stands
        have turn := closedTurn known stands s
        rw [same] at turn
        rw [windowBegan_of_closed shut began, streak_of_closed shut]
        cases turn with
        | question asks unjudged renewed =>
            have due := windowOver_iff_renews lasting known stands began asks
            rw [unjudged]
            by_cases renews : Renews rules name s past
            · rw [renewed, Circuit.renew, if_pos (due.2 renews), if_pos renews, if_pos (.inl renews)]
              exact ⟨rfl, rfl, rules.threshold_pos⟩
            · rw [renewed, Circuit.renew, if_neg (mt due.1 renews), if_neg renews,
                if_neg (by simp [renews]), if_neg nofun]
              exact ⟨rfl, row, below⟩
        | idle other uncounted keeps =>
            have kept : ¬ Renews rules name s past := not_renews other
            rw [if_neg kept, if_neg, if_neg, keeps.windowStarted, keeps.failures]
            · exact ⟨rfl, row, below⟩
            · rcases uncounted with none_judged | given_up <;> simp [*]
            · rcases uncounted with none_judged | given_up <;> simp [*]
        | success other counted keeps =>
            rw [if_neg (not_renews other), if_pos (.inr counted), keeps.windowStarted, keeps.failures]
            exact ⟨rfl, rfl, rules.threshold_pos⟩
        | failure other counted few keeps =>
            have next : Word.count32 c.consecutiveFailures = streak rules name past + 1 := by
              rw [row, Word.count32_eq (Nat.lt_of_lt_of_le below bound)]
            rw [if_neg (not_renews other), if_neg (by simp [not_renews other, counted]), if_pos counted,
              keeps.windowStarted, keeps.failures, ← next]
            exact ⟨rfl, rfl, few⟩
        | trip other counted reached opens => exact absurd (opens.symm.trans closed) nofun
      · have closes : Closes rules name s past := ⟨by rwa [stateAfter_of_known known], closed⟩
        obtain ⟨_, failures, window⟩ := take_of_closes known stands closed
        rw [windowBegan, streak, if_pos (.inl closes), if_pos (.inl closes), failures, window]
        exact ⟨rfl, rfl, rules.threshold_pos⟩

theorem observed_after (lasting : ∀ interval ∈ rules.interval, 0 < interval) (bound : rules.threshold ≤ Word.max32)
    (run : List Turn) : Observed rules name run := by
  induction run with
  | nil => exact observed_nil rules name
  | cons s past ih => exact ih.cons lasting bound s

/-- A turn opens a closed circuit exactly if it reports the failure that the rules do not allow any more. -/
theorem trips_iff (lasting : ∀ interval ∈ rules.interval, 0 < interval) (bound : rules.threshold ≤ Word.max32)
    (past : List Turn) (s : Turn) :
    (stateAfter rules name past = .closed ∧ stateAfter rules name (s :: past) = .opened) ↔
      stateAfter rules name past = .closed ∧
        s.judged? name (Circuits.after rules past) = some .failure ∧
        streak rules name past + 1 = rules.threshold := by
  refine and_congr_right fun shut => ?_
  cases known : (Circuits.after rules past).byName.find? name with
  | none =>
      rw [judged?_of_unknown known]
      refine iff_of_false (fun opens => ?_) fun told => nomatch told.1
      by_cases asks : s.move = .acquire name
      · obtain ⟨move, now⟩ := s
        cases asks
        have made := first_question known (by rwa [rules_after]) now
        exact absurd ((stateAfter_of_known made).symm.trans opens) nofun
      · have still := find?_take_of_unknown known asks
        exact absurd ((stateAfter_of_unknown still).symm.trans opens) nofun
  | some c =>
      have stands := (stateAfter_of_known known).symm.trans shut
      obtain ⟨_, row, below⟩ := (observed_after lasting bound past).closed c known stands
      have next : Word.count32 c.consecutiveFailures = streak rules name past + 1 := by
        rw [row, Word.count32_eq (Nat.lt_of_lt_of_le below bound)]
      have turn := closedTurn known stands s
      rw [rules_after] at turn
      have stays {failures : Nat}
          (keeps : Circuit.Keeps failures c ((s.take (Circuits.after rules past)).circuits.of name)) :
          stateAfter rules name (s :: past) ≠ .opened := fun opens => absurd (keeps.state.symm.trans opens) nofun
      cases turn with
      | question asks unjudged renewed =>
          have closed : stateAfter rules name (s :: past) = .closed := by
            rw [stateAfter, Circuits.after, renewed]
            exact (Circuit.stays_renew rules s.now c).state.trans stands
          simp [closed, unjudged]
      | idle other uncounted keeps => rcases uncounted with old | given_up <;> simp [stays keeps, *]
      | success other counted keeps => simp [stays keeps, counted]
      | failure other counted few keeps =>
          rw [next] at few
          simp [stays keeps, Nat.ne_of_lt few]
      | trip other counted reached opens =>
          rw [next] at reached
          exact iff_of_true opens ⟨counted, Nat.le_antisymm below reached⟩

/-- A closed circuit begins a new window exactly at a question at which its window is over. -/
theorem resets_iff (lasting : ∀ interval ∈ rules.interval, 0 < interval) (bound : rules.threshold ≤ Word.max32)
    (known : (Circuits.after rules past).byName.find? name = some c) (stands : c.state = .closed) (s : Turn) :
    (((Circuits.after rules (s :: past)).of name).state = .closed ∧
      ((Circuits.after rules (s :: past)).of name).windowStarted ≠ c.windowStarted) ↔
    Renews rules name s past := by
  obtain ⟨began, _, _⟩ := (observed_after lasting bound past).closed c known stands
  have turn := closedTurn known stands s
  rw [rules_after] at turn
  rw [Circuits.after]
  cases turn with
  | question asks unjudged renewed =>
      rw [← windowOver_iff_renews lasting known stands began asks, renewed, Circuit.renew]
      by_cases lapsed : c.windowOver rules s.now = true
      · rw [if_pos lapsed]
        refine iff_of_true ⟨stands, ?_⟩ lapsed
        -- A window lasts some time, so a new one does not begin when the one before did.
        rintro (same : s.now = c.windowStarted)
        rw [windowOver_eq lasting stands, CircuitRules.windowEnded, same] at lapsed
        obtain ⟨interval, length, ended⟩ := (Option.any_eq_true _ _).1 lapsed
        have longer : c.windowStarted < c.windowStarted + interval := Nat.lt_add_of_pos_right (lasting interval length)
        exact absurd (of_decide_eq_true ended) (Nat.not_le.2 longer)
      · rw [if_neg lapsed]
        exact iff_of_false (fun moved => moved.2 rfl) lapsed
  | idle other uncounted keeps => exact iff_of_false (fun moved => moved.2 keeps.windowStarted) (not_renews other)
  | success other counted keeps => exact iff_of_false (fun moved => moved.2 keeps.windowStarted) (not_renews other)
  | failure other counted few keeps => exact iff_of_false (fun moved => moved.2 keeps.windowStarted) (not_renews other)
  | trip other counted reached opens =>
      exact iff_of_false (fun moved => absurd (opens.symm.trans moved.1) (by decide)) (not_renews other)

end

/-! ### Every run -/

section

variable {breaker : Config.Breaker} {retry : Config.Retry} {rules : CircuitRules}

theorem interval_of_configured (configured : (Invoker.of breaker retry).circuits.rules = rules) :
    rules.interval = if breaker.intervalSeconds = 0 then none
      else some (Span.ofSeconds breaker.intervalSeconds.toNat) := by
  subst configured
  rfl

/-- The windows of a configuration last some time, unless they never end. -/
theorem lasting_of_configured (configured : (Invoker.of breaker retry).circuits.rules = rules) :
    ∀ interval ∈ rules.interval, 0 < interval := by
  rw [interval_of_configured configured]
  intro interval length
  split at length
  · cases length
  · next some_seconds =>
    obtain rfl := Option.some.inj length
    have other : breaker.intervalSeconds.toNat ≠ 0 := by simpa [← UInt64.toNat_inj] using some_seconds
    exact Nat.mul_pos (Nat.pos_of_ne_zero other) (by decide)

theorem windowEnded_of_configured (configured : (Invoker.of breaker retry).circuits.rules = rules)
    (now began : Span) : rules.windowEnded now began = true ↔
      breaker.intervalSeconds ≠ 0 ∧ began + Span.ofSeconds breaker.intervalSeconds.toNat ≤ now := by
  rw [CircuitRules.windowEnded, interval_of_configured configured]
  split
  · next endless => exact iff_of_false nofun fun ended => ended.1 endless
  · next some_seconds =>
    rw [Option.any_some, decide_eq_true_iff]
    exact (and_iff_right some_seconds).symm

/-- A closed circuit in every run of questions and reports, from any number of callers, with any permits and at any
times, and one turn more.

The turn opens it exactly if it reports a failure with a permit of the present generation, and if that is the last one
in a row that the configuration allows, counted since the circuit was closed, the latest success so reported, and the
latest new window; the circuit counts that row itself. A new window begins exactly at a question that comes when the
configured interval is over since the circuit was closed or the latest new window, never where no interval is
configured, and never at a report: then all counts begin anew with the call let through, which otherwise only joins
them. Reports of abandoned calls, and those with permits of other generations, leave the row and the window as they
are. -/
theorem trips_on_threshold (breaker : Config.Breaker) (retry : Config.Retry) (name : String) {rules : CircuitRules}
    (configured : (Invoker.of breaker retry).circuits.rules = rules) (past : List Turn) (s : Turn) :
    ((stateAfter rules name past = .closed ∧ stateAfter rules name (s :: past) = .opened) ↔
      stateAfter rules name past = .closed ∧ s.judged? name (Circuits.after rules past) = some .failure ∧
        streak rules name past + 1 = max breaker.failureThreshold.toNat 1) ∧
    ∀ c after, (Circuits.after rules past).byName.find? name = some c → c.state = .closed →
      (Circuits.after rules (s :: past)).byName.find? name = some after →
      c.consecutiveFailures = streak rules name past ∧
      (Renews rules name s past ↔ s.move = .acquire name ∧ breaker.intervalSeconds ≠ 0 ∧
        ∃ began, windowBegan rules name past = some began ∧
          began + Span.ofSeconds breaker.intervalSeconds.toNat ≤ s.now) ∧
      ((after.state = .closed ∧ after.windowStarted ≠ c.windowStarted) ↔ Renews rules name s past) ∧
      (s.move = .acquire name → after = (if Renews rules name s past then c.resetWindow s.now else c).admitted) ∧
      (s.move ≠ .acquire name → (∀ outcome, s.judged? name (Circuits.after rules past) = some outcome →
        outcome = .abandoned) → Circuit.Keeps (streak rules name past) c after) := by
  have lasting := lasting_of_configured configured
  have threshold : rules.threshold = max breaker.failureThreshold.toNat 1 := by rw [← configured]; rfl
  have bound : rules.threshold ≤ Word.max32 := by
    have word := breaker.failureThreshold.toNat_lt
    rw [threshold, Word.max32]
    omega
  rw [← threshold]
  refine ⟨trips_iff lasting bound past s, ?_⟩
  intro c after known stands found
  obtain ⟨began, row, _⟩ := (observed_after lasting bound past).closed c known stands
  have ended := windowEnded_of_configured configured s.now c.windowStarted
  have turn := closedTurn known stands s
  rw [rules_after, ← Circuits.after, Circuits.of_eq_of_find? found] at turn
  refine ⟨row, ?_, ?_, ?_, ?_⟩
  · simp [Renews, (stateAfter_of_known known).trans stands, began, ended]
  · rw [← resets_iff lasting bound known stands, Circuits.of_eq_of_find? found]
  · intro asks
    have due := windowOver_iff_renews lasting known stands began asks
    cases turn with
    | question _ _ renewed => simp only [renewed, Circuit.renew, due]
    | idle other _ _ => exact absurd asks other
    | success other _ _ => exact absurd asks other
    | failure other _ _ _ => exact absurd asks other
    | trip other _ _ _ => exact absurd asks other
  · intro other uncounted
    rw [← row]
    cases turn with
    | question asks _ _ => exact absurd asks other
    | idle _ _ keeps => exact keeps
    | success _ counted _ => cases uncounted _ counted
    | failure _ counted _ _ => cases uncounted _ counted
    | trip _ counted _ _ => cases uncounted _ counted

end

/-- Two failures in a row open the circuit, within ten seconds. -/
def twoInARow : Config.Breaker := { failureThreshold := 2 }

/-- Of two calls the first fails. The next question comes ten seconds after the first one, and its call fails as well;
the other call of the first two is given up. -/
def tenSecondsApart : List Turn :=
  [⟨.record "crm" ⟨0⟩ .failure, Span.ofSeconds 11⟩, ⟨.record "crm" ⟨0⟩ .abandoned, Span.ofSeconds 10⟩,
    ⟨.acquire "crm", Span.ofSeconds 10⟩, ⟨.record "crm" ⟨0⟩ .failure, 1⟩, ⟨.acquire "crm", 0⟩, ⟨.acquire "crm", 0⟩]

/-- That question has begun a new window, so the second failure is the first of its row, and the circuit is closed;
one more failure opens it. -/
theorem trips_on_threshold_tenSecondsApart :
    ∃ rules, (Invoker.of twoInARow {}).circuits.rules = rules ∧
      Renews rules "crm" ⟨.acquire "crm", Span.ofSeconds 10⟩ (tenSecondsApart.drop 3) ∧
      streak rules "crm" tenSecondsApart = 1 ∧ stateAfter rules "crm" tenSecondsApart = .closed ∧
      stateAfter rules "crm" (⟨.record "crm" ⟨0⟩ .failure, Span.ofSeconds 12⟩ :: tenSecondsApart) = .opened := by
  obtain ⟨opens, _⟩ := trips_on_threshold twoInARow {} "crm" rfl tenSecondsApart
    ⟨.record "crm" ⟨0⟩ .failure, Span.ofSeconds 12⟩
  have closed : stateAfter (Invoker.of twoInARow {}).circuits.rules "crm" tenSecondsApart = .closed := by
    decide +kernel
  have one : streak (Invoker.of twoInARow {}).circuits.rules "crm" tenSecondsApart = 1 := by decide +kernel
  refine ⟨_, rfl, ?_, one, closed, (opens.2 ⟨closed, by decide +kernel, ?_⟩).2⟩
  · decide +kernel
  · rw [one]
    rfl

end HostControl.Invocation
