/-
Module: HostControl.Proofs.Invocation.Totals
Purpose: The totals that the circuits report, in every run of questions and reports about any services. Each
  question is counted once, as a call let through or as one refused; each call let through has been reported with
  one outcome or its permit is still out. What happens to one service is nothing to another, and the reports name
  each service that was ever asked for once, in order.
Main exports: asked, reported, Circuit.Totals, totals_acquire, totals_record, Totalled, totalled_after, Accounted,
  accounted_after, Circuits.Agree, Agree.take, keys_after, reports_of_nodup, agree_after, accounts_conserved
-/
import HostControl.Proofs.Invocation.Balance
import HostControl.Proofs.Text.Sorting

namespace HostControl.Invocation

/-! ### Questions and reports in a run -/

/-- Whether a caller asks to call a service. -/
def Move.asks (name : String) : Move → Bool
  | .acquire called => called = name
  | .record .. => false

/-- Whether a caller reports that a call to a service has ended in a way. -/
def Move.reports (name : String) (outcome : Outcome) : Move → Bool
  | .acquire _ => false
  | .record called _ how => called = name && how = outcome

/-- How often a run asks to call a service. -/
def asked (name : String) (run : List Turn) : Nat := run.countP (·.move.asks name)

/-- How often a run reports an outcome of calls to a service. -/
def reported (name : String) (outcome : Outcome) (run : List Turn) : Nat :=
  run.countP (·.move.reports name outcome)

section

variable {name : String} {outcome : Outcome} {s : Turn} {past : List Turn}

theorem asked_cons : asked name (s :: past) = asked name past + if s.move.asks name then 1 else 0 :=
  List.countP_cons

theorem reported_cons : reported name outcome (s :: past) =
    reported name outcome past + if s.move.reports name outcome then 1 else 0 :=
  List.countP_cons

/-- A caller that speaks of another service neither asks for this one nor reports on it. -/
theorem Move.quiet_of_ne {m : Move} (other : m.name ≠ name) :
    m.asks name = false ∧ ∀ outcome, m.reports name outcome = false := by
  cases m with
  | acquire called =>
      have other : called ≠ name := other
      simp [asks, reports, other]
  | record called permit how =>
      have other : called ≠ name := other
      simp [asks, reports, other]

theorem asked_acquire {now : Span} : asked name (⟨.acquire name, now⟩ :: past) = asked name past + 1 := by
  rw [asked_cons, Move.asks]
  simp

theorem asked_acquire_of_ne {called : String} {now : Span} (other : called ≠ name) :
    asked name (⟨.acquire called, now⟩ :: past) = asked name past := by
  rw [asked_cons, (Move.quiet_of_ne (m := .acquire called) other).1]
  rfl

theorem reported_record {permit : Permit} {how : Outcome} {now : Span} :
    reported name outcome (⟨.record name permit how, now⟩ :: past) =
      reported name outcome past + if how = outcome then 1 else 0 := by
  rw [reported_cons, Move.reports]
  simp

theorem asked_pos_iff {run : List Turn} : 0 < asked name run ↔ ∃ s ∈ run, s.move = .acquire name := by
  rw [asked, List.countP_pos_iff]
  refine exists_congr fun s => and_congr_right fun _ => ?_
  cases s.move with
  | acquire called => simp [Move.asks]
  | record called permit how => simp [Move.asks]

end

/-! ### The totals of a circuit -/

namespace Circuit

/-- What a circuit has counted since the beginning. No change of state and no new window sets it back. -/
structure Totals where
  requests : Nat
  rejected : Nat
  successes : Nat
  failures : Nat
deriving DecidableEq, Repr

def totals (c : Circuit) : Totals := ⟨c.totalRequests, c.rejected, c.totalSuccesses, c.totalFailures⟩

/-- One more outcome. -/
def Totals.tallied (outcome : Outcome) (t : Totals) : Totals :=
  match outcome with
  | .success => { t with successes := Word.count64 t.successes }
  | .failure => { t with failures := Word.count64 t.failures }
  | .abandoned => t

/-- An outcome is no call let through and none refused. -/
theorem Totals.calls_tallied (outcome : Outcome) (t : Totals) :
    (t.tallied outcome).requests = t.requests ∧ (t.tallied outcome).rejected = t.rejected := by
  cases outcome <;> exact ⟨rfl, rfl⟩

variable {rules : CircuitRules} {now : Span} {c : Circuit}

theorem totals_renew (rules : CircuitRules) (now : Span) (c : Circuit) :
    (c.renew rules now).totals = c.totals := by
  unfold renew
  split
  · rfl
  · rfl

theorem requestsInWindow_renew_le (rules : CircuitRules) (now : Span) (c : Circuit) :
    (c.renew rules now).requestsInWindow ≤ c.requestsInWindow := by
  unfold renew
  split
  · exact Nat.zero_le _
  · exact Nat.le_refl _

/-- A question counts as a call let through or as one refused, as it is answered. -/
theorem totals_acquire (rules : CircuitRules) (now : Span) (c : Circuit) :
    (c.acquire rules now).2.2.totals =
      if (c.acquire rules now).1.isSome then { c.totals with requests := Word.count64 c.totalRequests }
      else { c.totals with rejected := Word.count64 c.rejected } := by
  rcases acquire_cases rules now c with ⟨_, same⟩ | ⟨_, _, same⟩ | ⟨_, _, same⟩
  · rw [same]
    rfl
  · have kept := totals_renew rules now c
    simp only [totals, Totals.mk.injEq] at kept
    rw [same]
    simp [totals, admitted, kept]
  · rw [same]
    rfl

/-- The window has no more calls than there ever were, and it gains none that the total does not. -/
theorem requestsInWindow_acquire (within : c.requestsInWindow ≤ c.totalRequests) :
    (c.acquire rules now).2.2.requestsInWindow ≤ (c.acquire rules now).2.2.totalRequests := by
  have counted {window total : Nat} (less : window ≤ total) : Word.count32 window ≤ Word.count64 total := by
    simp only [Word.count32, Word.cap32, Word.count64, Word.cap64, Word.max32, Word.max64]
    omega
  rcases acquire_cases rules now c with ⟨_, same⟩ | ⟨_, _, same⟩ | ⟨_, _, same⟩
  · rw [same]
    exact counted (Nat.zero_le _)
  · have kept : (c.renew rules now).totalRequests = c.totalRequests :=
      congrArg Totals.requests (totals_renew rules now c)
    rw [same]
    exact counted (kept.symm ▸ Nat.le_trans (requestsInWindow_renew_le rules now c) within)
  · rw [same]
    exact within

theorem signal_totals (rules : CircuitRules) (s : Signal) (now : Span) (c : Circuit) :
    (c.signal rules s now).1.totals = c.totals ∧
      (c.signal rules s now).1.requestsInWindow ≤ c.requestsInWindow := by
  rcases signal_ends rules s now c with ⟨_, same⟩ | ⟨target, _, _, same⟩
  · rw [same]
    exact ⟨rfl, Nat.le_refl _⟩
  · rw [same]
    exact ⟨rfl, Nat.zero_le _⟩

/-- What an outcome moves are no totals. -/
theorem judge_totals (rules : CircuitRules) (outcome : Outcome) (now : Span) (c : Circuit) :
    (c.judge rules outcome now).1.totals = c.totals ∧
      (c.judge rules outcome now).1.requestsInWindow ≤ c.requestsInWindow := by
  cases outcome with
  | success => exact signal_totals rules .success now c.succeeded
  | failure => exact signal_totals rules .failure now c.failed
  | abandoned =>
      simp only [judge]
      split
      · exact ⟨rfl, Nat.le_refl _⟩
      · exact ⟨rfl, Nat.le_refl _⟩

/-- A report counts in the totals, of whichever generation its permit is. -/
theorem totals_record (rules : CircuitRules) (permit : Permit) (outcome : Outcome) (now : Span) (c : Circuit) :
    (c.record rules permit outcome now).1.totals = c.totals.tallied outcome ∧
      (c.record rules permit outcome now).1.requestsInWindow ≤ c.requestsInWindow := by
  have tallied : (c.tally outcome).totals = c.totals.tallied outcome ∧
      (c.tally outcome).requestsInWindow = c.requestsInWindow := by
    cases outcome <;> exact ⟨rfl, rfl⟩
  rw [← tallied.1, ← tallied.2]
  by_cases current : permit.generation = c.generation
  · rw [record_of_current current]
    exact judge_totals rules outcome now (c.tally outcome)
  · rw [record_of_stale current]
    exact ⟨rfl, Nat.le_refl _⟩

end Circuit

/-! ### Services apart -/

namespace Circuits

variable {name : String} {cs others : Circuits} {s t : Turn}

theorem of_take_of_ne (other : s.move.name ≠ name) (cs : Circuits) :
    (s.take cs).circuits.of name = cs.of name := by
  rw [of, of, get, get, find?_take_of_ne other]

/-- The circuit that is made on first use has counted as little as the one that stands for it. -/
theorem totals_get (name : String) (now : Span) (cs : Circuits) :
    (cs.get name now).totals = (cs.of name).totals ∧
      (cs.get name now).requestsInWindow = (cs.of name).requestsInWindow := by
  unfold of get
  cases cs.byName.find? name with
  | none => exact ⟨rfl, rfl⟩
  | some c => exact ⟨rfl, rfl⟩

/-- Two states of the circuits in which a service stands the same. -/
structure Agree (name : String) (cs others : Circuits) : Prop where
  rules : cs.rules = others.rules
  circuit : cs.byName.find? name = others.byName.find? name

theorem agree_take (other : s.move.name ≠ name) (cs : Circuits) : Agree name (s.take cs).circuits cs :=
  ⟨rules_take s cs, find?_take_of_ne other cs⟩

/-- Where a service stands the same, a turn has the same answer for it and leaves it the same. -/
theorem Agree.take (agree : Agree name cs others) (t : Turn) :
    Agree name (t.take cs).circuits (t.take others).circuits ∧
      (t.move.name = name → (t.take cs).permit = (t.take others).permit ∧
        (t.take cs).transition = (t.take others).transition) := by
  have rules : (t.take cs).circuits.rules = (t.take others).circuits.rules := by
    rw [rules_take, rules_take, agree.rules]
  by_cases own : t.move.name = name
  · obtain ⟨move, now⟩ := t
    subst own
    cases move with
    | acquire name =>
        have circuit : cs.byName.find? name = others.byName.find? name := agree.circuit
        have same : cs.get name now = others.get name now := by rw [get, get, circuit]
        refine ⟨⟨rules, ?_⟩, fun _ => ?_⟩
        all_goals simp only [Turn.take, Circuits.acquire, same, agree.rules, and_self]
        exact (Table.find?_set_self _ _ _).trans (Table.find?_set_self _ _ _).symm
    | record name permit outcome =>
        have circuit : cs.byName.find? name = others.byName.find? name := agree.circuit
        refine ⟨⟨rules, ?_⟩, fun _ => ?_⟩
        all_goals
          simp only [Turn.take, Move.name]
          cases known : cs.byName.find? name with
          | none =>
              rw [record_of_unknown known, record_of_unknown (circuit.symm.trans known)]
              simp [known, ← circuit]
          | some c =>
              rw [record_of_known known, record_of_known (circuit.symm.trans known), agree.rules]
              simp [Table.find?_set_self]
  · refine ⟨⟨rules, ?_⟩, fun about => absurd about own⟩
    rw [find?_take_of_ne own, find?_take_of_ne own, agree.circuit]

/-- What a service goes through when it speaks next does not hang on turns of others. -/
theorem agree_after (rules : CircuitRules) (past : List Turn) (other : s.move.name ≠ name) (later : List Turn) :
    Agree name (after rules (later ++ s :: past)) (after rules (later ++ past)) := by
  induction later with
  | nil => exact agree_take other _
  | cons t later ih => exact (ih.take t).1

end Circuits

/-! ### The totals of a run -/

/-- The circuit of a service has counted each question once, and its window has no more calls than there ever
were. -/
structure Totalled (name : String) (run : List Turn) (c : Circuit) : Prop where
  questions : c.totalRequests + c.rejected = asked name run
  window : c.requestsInWindow ≤ c.totalRequests

/-- The circuit of a service has counted each outcome that judges it, of whichever generation, and each call let
through has been reported or its permit is out. -/
structure Accounted (rules : CircuitRules) (name : String) (run : List Turn) (c : Circuit) : Prop where
  successes : c.totalSuccesses = reported name .success run
  failures : c.totalFailures = reported name .failure run
  permits : c.totalRequests = c.totalSuccesses + c.totalFailures + reported name .abandoned run +
    (outstanding rules name run).length

section

variable {rules : CircuitRules} {name : String} {run past : List Turn} {now : Span}

theorem asked_le_cons (name : String) (s : Turn) (past : List Turn) : asked name past ≤ asked name (s :: past) := by
  rw [asked_cons]
  exact Nat.le_add_right _ _

/-- The totals of a service after it is asked for: the question is counted once, and as a call let through if it was
given a permit. -/
theorem totals_asked (rules : CircuitRules) (name : String) (now : Span) (past : List Turn) :
    let before := (Circuits.after rules past).of name
    let after := (Circuits.after rules (⟨.acquire name, now⟩ :: past)).of name
    (before.totalRequests + before.rejected < Word.max64 →
      after.totalRequests + after.rejected = before.totalRequests + before.rejected + 1 ∧
      after.totalRequests = before.totalRequests + ((Circuits.after rules past).acquire name now).1.toList.length) ∧
    after.totalSuccesses = before.totalSuccesses ∧ after.totalFailures = before.totalFailures ∧
    (before.requestsInWindow ≤ before.totalRequests → after.requestsInWindow ≤ after.totalRequests) := by
  obtain ⟨same, window⟩ := Circuits.totals_get name now (Circuits.after rules past)
  have counted := Circuit.totals_acquire (Circuits.after rules past).rules now
    ((Circuits.after rules past).get name now)
  simp only [Circuit.totals, Circuit.Totals.mk.injEq] at same
  simp only [Circuits.after, Turn.take, Circuits.of_acquire]
  have within := @Circuit.requestsInWindow_acquire (Circuits.after rules past).rules now
    ((Circuits.after rules past).get name now)
  rw [window, same.1] at within
  have given : ((Circuits.after rules past).acquire name now).1 =
    (((Circuits.after rules past).get name now).acquire (Circuits.after rules past).rules now).1 := rfl
  rw [given]
  cases answer : (((Circuits.after rules past).get name now).acquire (Circuits.after rules past).rules now).1 with
  | some permit =>
      simp only [answer, Option.isSome_some, if_true, Circuit.totals, Circuit.Totals.mk.injEq, same] at counted
      obtain ⟨requests, rejected, successes, failures⟩ := counted
      refine ⟨fun room => ?_, successes, failures, within⟩
      rw [requests, rejected, Word.count64_eq (by omega)]
      exact ⟨by omega, rfl⟩
  | none =>
      simp only [answer, Option.isSome_none, Bool.false_eq_true, if_false, Circuit.totals, Circuit.Totals.mk.injEq,
        same] at counted
      obtain ⟨requests, rejected, successes, failures⟩ := counted
      refine ⟨fun room => ?_, successes, failures, within⟩
      rw [requests, rejected, Word.count64_eq (by omega)]
      exact ⟨by omega, rfl⟩

/-- The totals of a service after an outcome is reported for it: the calls let through and refused are as many as
before, and the outcome is counted if any call was let through. -/
theorem totals_reported (rules : CircuitRules) (name : String) (permit : Permit) (outcome : Outcome) (now : Span)
    (past : List Turn) :
    let before := (Circuits.after rules past).of name
    let after := (Circuits.after rules (⟨.record name permit outcome, now⟩ :: past)).of name
    after.totalRequests = before.totalRequests ∧ after.rejected = before.rejected ∧
    after.requestsInWindow ≤ before.requestsInWindow ∧
    (0 < before.totalRequests → after.totals = before.totals.tallied outcome) := by
  simp only [Circuits.after, Turn.take]
  cases known : (Circuits.after rules past).byName.find? name with
  | none =>
      have fresh : (Circuits.after rules past).of name = .fresh 0 := by
        rw [Circuits.of, Circuits.get, known, Option.getD_none]
      rw [Circuits.record_of_unknown known, fresh]
      exact ⟨rfl, rfl, Nat.le_refl _, fun some => absurd some (Nat.lt_irrefl 0)⟩
  | some c =>
      rw [Circuits.record_of_known known, Circuits.of_set_self, Circuits.of_eq_of_find? known]
      obtain ⟨totals, window⟩ := Circuit.totals_record (Circuits.after rules past).rules permit outcome now c
      obtain ⟨requests, rejected⟩ := c.totals.calls_tallied outcome
      rw [← totals] at requests rejected
      exact ⟨requests, rejected, window, fun _ => totals⟩

/-- Whatever the permits are, each question is counted once. -/
theorem totalled_after (few : asked name run ≤ Word.max64) :
    Totalled name run ((Circuits.after rules run).of name) := by
  induction run with
  | nil => exact ⟨rfl, Nat.le_refl _⟩
  | cons s past ih =>
      obtain ⟨questions, window⟩ := ih (Nat.le_trans (asked_le_cons name s past) few)
      by_cases own : s.move.name = name
      · obtain ⟨move, now⟩ := s
        cases move with
        | acquire called =>
            obtain rfl : called = name := own
            obtain ⟨counted, _, _, within⟩ := totals_asked rules called now past
            rw [asked_acquire] at few
            refine ⟨?_, within window⟩
            rw [(counted (by omega)).1, questions, asked_acquire]
        | record called permit outcome =>
            obtain rfl : called = name := own
            obtain ⟨requests, rejected, fewer, _⟩ := totals_reported rules called permit outcome now past
            refine ⟨?_, ?_⟩
            · rw [requests, rejected, asked_cons]
              exact questions
            · rw [requests]
              exact Nat.le_trans fewer window
      · rw [Circuits.after, Circuits.of_take_of_ne own]
        refine ⟨?_, window⟩
        rw [asked_cons, (Move.quiet_of_ne own).1, questions]
        rfl

/-- A question that is answered by a permit leaves one permit more to be reported with. -/
theorem Accounted.question (accounted : Accounted rules name past ((Circuits.after rules past).of name))
    (room : ((Circuits.after rules past).of name).totalRequests + ((Circuits.after rules past).of name).rejected <
      Word.max64) :
    Accounted rules name (⟨.acquire name, now⟩ :: past)
      ((Circuits.after rules (⟨.acquire name, now⟩ :: past)).of name) := by
  obtain ⟨counted, successes, failures, _⟩ := totals_asked rules name now past
  have out : outstanding rules name (⟨.acquire name, now⟩ :: past) =
      ((Circuits.after rules past).acquire name now).1.toList ++ outstanding rules name past := by
    simp only [outstanding, Turn.take, if_true]
  have none_reported (outcome : Outcome) : reported name outcome (⟨.acquire name, now⟩ :: past) =
      reported name outcome past := reported_cons
  refine ⟨?_, ?_, ?_⟩
  · rw [successes, accounted.successes, none_reported]
  · rw [failures, accounted.failures, none_reported]
  · rw [(counted room).2, successes, failures, accounted.permits, none_reported, out, List.length_append]
    omega

/-- A report uses up its permit and counts as one outcome. -/
theorem Accounted.outcome {permit : Permit} {outcome : Outcome}
    (accounted : Accounted rules name past ((Circuits.after rules past).of name))
    (given : permit ∈ outstanding rules name past)
    (room : ((Circuits.after rules past).of name).totalRequests ≤ Word.max64) :
    Accounted rules name (⟨.record name permit outcome, now⟩ :: past)
      ((Circuits.after rules (⟨.record name permit outcome, now⟩ :: past)).of name) := by
  obtain ⟨requests, _, _, counted⟩ := totals_reported rules name permit outcome now past
  have out : outstanding rules name (⟨.record name permit outcome, now⟩ :: past) =
      (outstanding rules name past).erase permit := by
    simp only [outstanding, if_true]
  have some_out := List.length_pos_of_mem given
  obtain ⟨successes, failures, permits⟩ := accounted
  have totals := counted (by omega)
  -- There are no more outcomes than calls let through, so none of the two totals has reached the end of its word.
  have fits : ((Circuits.after rules past).of name).totalSuccesses < Word.max64 ∧
      ((Circuits.after rules past).of name).totalFailures < Word.max64 := by omega
  have counts : ((Circuits.after rules (⟨.record name permit outcome, now⟩ :: past)).of name).totalSuccesses =
        ((Circuits.after rules past).of name).totalSuccesses + (if outcome = .success then 1 else 0) ∧
      ((Circuits.after rules (⟨.record name permit outcome, now⟩ :: past)).of name).totalFailures =
        ((Circuits.after rules past).of name).totalFailures + (if outcome = .failure then 1 else 0) := by
    have successes := congrArg Circuit.Totals.successes totals
    have failures := congrArg Circuit.Totals.failures totals
    cases outcome with
    | success => exact ⟨successes.trans (Word.count64_eq fits.1), failures⟩
    | failure => exact ⟨successes, failures.trans (Word.count64_eq fits.2)⟩
    | abandoned => exact ⟨successes, failures⟩
  have one : (if outcome = .success then 1 else 0) + (if outcome = .failure then 1 else 0) +
      (if outcome = .abandoned then 1 else 0) = 1 := by
    cases outcome <;> rfl
  refine ⟨?_, ?_, ?_⟩
  · rw [counts.1, successes, reported_record]
  · rw [counts.2, failures, reported_record]
  · rw [requests, permits, counts.1, counts.2, reported_record, out, List.length_erase_of_mem given]
    omega

/-- Where permits are reported with once at most, each call let through is accounted for. -/
theorem accounted_after (few : asked name run ≤ Word.max64) (honest : Honest rules name run) :
    Accounted rules name run ((Circuits.after rules run).of name) := by
  induction run with
  | nil => exact ⟨rfl, rfl, rfl⟩
  | cons s past ih =>
      have fewer := Nat.le_trans (asked_le_cons name s past) few
      have accounted := ih fewer honest.1
      have totalled : Totalled name past ((Circuits.after rules past).of name) := totalled_after fewer
      have questions := totalled.questions
      by_cases own : s.move.name = name
      · obtain ⟨move, now⟩ := s
        cases move with
        | acquire called =>
            obtain rfl : called = name := own
            rw [asked_acquire] at few
            exact accounted.question (by omega)
        | record called permit outcome =>
            obtain rfl : called = name := own
            exact accounted.outcome (honest.2 permit outcome rfl) (by omega)
      · have quiet := (Move.quiet_of_ne own).2
        have permits : outstanding rules name (s :: past) = outstanding rules name past := by
          obtain ⟨move, now⟩ := s
          cases move with
          | acquire called => exact if_neg own
          | record called permit outcome => exact if_neg own
        rw [Circuits.after, Circuits.of_take_of_ne own]
        obtain ⟨successes, failures, balance⟩ := accounted
        refine ⟨?_, ?_, ?_⟩
        all_goals simp only [reported_cons, quiet, Bool.false_eq_true, if_false, Nat.add_zero, permits]
        · exact successes
        · exact failures
        · exact balance

end

/-! ### The reports on all services -/

namespace Circuits

variable {cs : Circuits} {rules : CircuitRules} {run : List Turn}

/-- Each service that was ever asked for has one circuit, and there are no others. -/
theorem keys_after (rules : CircuitRules) (run : List Turn) :
    (after rules run).byName.keys.Nodup ∧ ∀ name, name ∈ (after rules run).byName.keys ↔ 0 < asked name run := by
  induction run with
  | nil => exact ⟨List.nodup_nil, fun name => ⟨nofun, nofun⟩⟩
  | cons s past ih =>
      obtain ⟨distinct, present⟩ := ih
      obtain ⟨move, now⟩ := s
      cases move with
      | acquire called =>
          have keys : (after rules (⟨.acquire called, now⟩ :: past)).byName.keys =
              if called ∈ (after rules past).byName.keys then (after rules past).byName.keys
              else (after rules past).byName.keys ++ [called] := Table.keys_set called _ _
          rw [keys]
          split
          · next known =>
            refine ⟨distinct, fun name => (present name).trans ?_⟩
            by_cases own : called = name
            · subst own
              simp [(present called).1 known, asked_acquire]
            · rw [asked_acquire_of_ne own]
          · next unknown =>
            refine ⟨List.nodup_append.2 ⟨distinct, by simp, ?_⟩, fun name => ?_⟩
            · rintro key member _ (_ | ⟨_, ⟨⟩⟩) rfl
              exact unknown member
            · rw [List.mem_append, List.mem_singleton, present]
              by_cases own : called = name
              · subst own
                simp [asked_acquire]
              · rw [asked_acquire_of_ne own]
                simp [Ne.symm own]
      | record called permit outcome =>
          have none_asked (name : String) :
              asked name (⟨.record called permit outcome, now⟩ :: past) = asked name past := asked_cons
          simp only [none_asked, after, Turn.take]
          cases known : (after rules past).byName.find? called with
          | none =>
              rw [record_of_unknown known]
              exact ⟨distinct, present⟩
          | some c =>
              have there : called ∈ (after rules past).byName.keys := Table.mem_keys (Table.mem_of_find? known)
              rw [record_of_known known]
              simp only [Table.keys_set, if_pos there]
              exact ⟨distinct, present⟩

/-- The reports are in the order of the names, with none twice, and are those on the single services. -/
theorem reports_of_nodup (distinct : cs.byName.keys.Nodup) :
    (cs.reports.map (·.name)).Pairwise (· < ·) ∧ ∀ r, r ∈ cs.reports ↔ cs.report? r.name = some r := by
  have all : cs.reports.Perm (cs.byName.map fun entry => entry.2.report entry.1) := List.mergeSort_perm _ _
  have names : (cs.reports.map (·.name)).Perm cs.byName.keys := by
    have := all.map (·.name)
    rwa [List.map_map] at this
  have sorted : cs.reports.Pairwise fun a b => a.name ≤ b.name := Text.sortedBy_pairwise CircuitReport.name _
  refine ⟨?_, fun r => ?_⟩
  · refine ((List.pairwise_map.2 sorted).and (names.nodup_iff.2 distinct)).imp ?_
    rintro a b ⟨below, apart⟩
    exact Decidable.not_not.1 fun above => apart (String.le_antisymm below above)
  · rw [all.mem_iff, List.mem_map, report?, Option.map_eq_some_iff]
    constructor
    · rintro ⟨⟨name, c⟩, member, rfl⟩
      exact ⟨c, Table.find?_of_mem distinct member, rfl⟩
    · rintro ⟨c, found, same⟩
      exact ⟨(r.name, c), Table.mem_of_find? found, same⟩

end Circuits

/-! ### The accounts of all services -/

/-- In every run of questions and reports on any services, by any number of callers and at any times.

Each report on a service adds up: the calls let through and those refused are the questions asked for it, and the
window has no more calls than there ever were; where permits are reported with once at most, its successes and
failures are the outcomes so reported, of whichever generation, and the calls let through are these, those that were
given up, and those whose permits are still out. A turn for one service changes neither the report on another one nor
what is answered for that one later. The reports name each service that was ever asked for once, in the order of the
names. -/
theorem accounts_conserved (rules : CircuitRules) (run : List Turn) :
    (∀ name r, (Circuits.after rules run).report? name = some r → asked name run ≤ Word.max64 →
      r.totalRequests + r.rejected = asked name run ∧ r.requestsInWindow ≤ r.totalRequests ∧
      (Honest rules name run →
        r.totalSuccesses = reported name .success run ∧ r.totalFailures = reported name .failure run ∧
        r.totalRequests = r.totalSuccesses + r.totalFailures + reported name .abandoned run +
          (outstanding rules name run).length)) ∧
    (∀ (name : String) (s : Turn) (later : List Turn), s.move.name ≠ name →
      (Circuits.after rules (later ++ s :: run)).report? name = (Circuits.after rules (later ++ run)).report? name ∧
      ∀ t : Turn, t.move.name = name →
        (t.take (Circuits.after rules (later ++ s :: run))).permit =
          (t.take (Circuits.after rules (later ++ run))).permit ∧
        (t.take (Circuits.after rules (later ++ s :: run))).transition =
          (t.take (Circuits.after rules (later ++ run))).transition) ∧
    ((Circuits.after rules run).reports.map (·.name)).Pairwise (· < ·) ∧
    (∀ r, r ∈ (Circuits.after rules run).reports ↔ (Circuits.after rules run).report? r.name = some r) ∧
    ∀ name, ((Circuits.after rules run).report? name).isSome ↔ ∃ s ∈ run, s.move = .acquire name := by
  obtain ⟨distinct, present⟩ := Circuits.keys_after rules run
  obtain ⟨ordered, single⟩ := Circuits.reports_of_nodup distinct
  refine ⟨?_, ?_, ordered, single, ?_⟩
  · intro name r told few
    obtain ⟨c, known, rfl⟩ := Option.map_eq_some_iff.1 told
    have circuit := Circuits.of_eq_of_find? known
    have totalled : Totalled name run c := circuit ▸ totalled_after few
    refine ⟨totalled.questions, totalled.window, fun honest => ?_⟩
    have accounted : Accounted rules name run c := circuit ▸ accounted_after few honest
    exact ⟨accounted.successes, accounted.failures, accounted.permits⟩
  · intro name s later other
    have agree := Circuits.agree_after rules run other later
    exact ⟨by rw [Circuits.report?, Circuits.report?, agree.circuit], fun t own => (agree.take t).2 own⟩
  · intro name
    rw [← asked_pos_iff, ← present name, Circuits.report?, Option.isSome_map, Option.isSome_iff_ne_none, Ne,
      Table.find?_eq_none_iff, Decidable.not_not]

/-- Four calls to one service are let through. The first fails and opens the circuit, which refuses a fifth one; two
of the others end late, and of the last nothing is heard. Another service is asked for at the end. -/
def unheard : List Turn :=
  [⟨.acquire "bank", 50⟩, ⟨.record "store" ⟨0⟩ .success, 40⟩, ⟨.record "store" ⟨0⟩ .abandoned, 30⟩,
    ⟨.acquire "store", 20⟩, ⟨.record "store" ⟨0⟩ .failure, 10⟩, ⟨.acquire "store", 0⟩, ⟨.acquire "store", 0⟩,
    ⟨.acquire "store", 0⟩, ⟨.acquire "store", 0⟩]

theorem accounts_conserved_unheard :
    ∃ rules r, (Invoker.of pairOfTrials {}).circuits.rules = rules ∧
      (Circuits.after rules unheard).report? "store" = some r ∧ asked "store" unheard ≤ Word.max64 ∧
      Honest rules "store" unheard ∧ r.totalRequests + r.rejected = 5 ∧ r.totalSuccesses = 1 ∧ r.totalFailures = 1 ∧
      r.totalRequests = 1 + 1 + 1 + (outstanding rules "store" unheard).length ∧
      (Circuits.after rules unheard).report? "store" = (Circuits.after rules unheard.tail).report? "store" := by
  have honest : Honest (Invoker.of pairOfTrials {}).circuits.rules "store" unheard := by
    refine ⟨⟨⟨⟨⟨⟨⟨⟨⟨trivial, nofun⟩, nofun⟩, nofun⟩, nofun⟩, ?_⟩, nofun⟩, ?_⟩, ?_⟩, nofun⟩
    all_goals
      rintro _ _ ⟨⟩
      decide +kernel
  have few : asked "store" unheard ≤ Word.max64 := by decide
  obtain ⟨accounts, _, _, _, known⟩ := accounts_conserved (Invoker.of pairOfTrials {}).circuits.rules unheard
  obtain ⟨_, apart, _⟩ := accounts_conserved (Invoker.of pairOfTrials {}).circuits.rules unheard.tail
  obtain ⟨r, told⟩ := Option.isSome_iff_exists.1 ((known "store").2 ⟨⟨.acquire "store", 0⟩, by decide, rfl⟩)
  obtain ⟨questions, _, accounted⟩ := accounts "store" r told few
  obtain ⟨successes, failures, permits⟩ := accounted honest
  rw [successes, failures] at permits
  exact ⟨_, r, rfl, told, few, honest, questions, successes, failures, permits,
    (apart "store" ⟨.acquire "bank", 50⟩ [] (by decide)).1⟩

end HostControl.Invocation
