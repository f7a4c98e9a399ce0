/-
Module: HostControl.Proofs.Invocation.Safety
Purpose: Circuits are safe in every run. A circuit that has opened refuses all calls for the length of
  the cooldown, whatever is reported meanwhile; then the first call is let through on trial, and one failed
  trial begins the cooldown anew. What was admitted before the latest change of state decides nothing.
Main exports: Opens, take_acquire_before, take_acquire_after, opened_take, openSince_after,
  take_record_of_stale, take_record_failure
-/
import HostControl.Proofs.Invocation.Run

namespace HostControl.Invocation

/-- A turn opens the circuit of a service. -/
def Opens (rules : CircuitRules) (name : String) (s : Turn) (past : List Turn) : Prop :=
  ((Circuits.after rules past).of name).state ≠ .opened ∧
    ((Circuits.after rules (s :: past)).of name).state = .opened

section

variable {rules : CircuitRules} {name : String}

/-! ### While the circuit is open -/

/-- A circuit that opens is open from that turn on. -/
theorem openSince_of_opens {s : Turn} {past : List Turn} (opens : Opens rules name s past) :
    Circuit.OpenSince s.now ((Circuits.after rules (s :: past)).of name) := by
  rcases take_ends s (Circuits.after rules past) name with ⟨stays, _⟩ | ⟨_, moves, _⟩
  · exact absurd (stays.state.symm.trans opens.2) opens.1
  · exact moves.openSince opens.2

/-- Before the cooldown is over, a question for a permit is refused. -/
theorem take_acquire_before {cs : Circuits} {opening now : Span}
    (since : Circuit.OpenSince opening (cs.of name)) (warm : now - opening < cs.rules.cooldown) :
    ((⟨.acquire name, now⟩ : Turn).take cs).permit = none ∧
      ((⟨.acquire name, now⟩ : Turn).take cs).transition = none ∧
      Circuit.OpenSince opening (((⟨.acquire name, now⟩ : Turn).take cs).circuits.of name) := by
  have stands := since.of_stays (Circuits.stays_get name now cs)
  have refused := stands.acquire_before warm
  refine ⟨congrArg (·.1) refused, congrArg (·.2.1) refused, ?_⟩
  simp only [Turn.take, Circuits.of_acquire]
  rw [refused]
  exact stands.of_stays (Circuit.stays_refused _)

/-- Once the cooldown is over, a question for a permit is granted, and the circuit is half-open. -/
theorem take_acquire_after {cs : Circuits} {opening now : Span}
    (since : Circuit.OpenSince opening (cs.of name)) (cold : cs.rules.cooldown ≤ now - opening) :
    (∃ permit, ((⟨.acquire name, now⟩ : Turn).take cs).permit = some permit) ∧
      ((⟨.acquire name, now⟩ : Turn).take cs).transition = some ⟨.opened, .halfOpen⟩ ∧
      (((⟨.acquire name, now⟩ : Turn).take cs).circuits.of name).state = .halfOpen := by
  have stands := since.of_stays (Circuits.stays_get name now cs)
  have granted := stands.acquire_after cold
  refine ⟨⟨_, congrArg (·.1) granted⟩, congrArg (·.2.1) granted, ?_⟩
  simp only [Turn.take, Circuits.of_acquire]
  rw [granted]
  rfl

/-- No other turn moves an open circuit. -/
theorem opened_take {cs : Circuits} {opening : Span} {s : Turn}
    (since : Circuit.OpenSince opening (cs.of name)) (other : s.move ≠ .acquire name) :
    Circuit.OpenSince opening ((s.take cs).circuits.of name) := by
  by_cases own : s.move.name = name
  · obtain ⟨move, now⟩ := s
    subst own
    cases move with
    | acquire name => exact absurd rfl other
    | record name permit outcome =>
        simp only [Turn.take, Move.name] at since ⊢
        cases known : cs.byName.find? name with
        | none =>
            rw [Circuits.record_of_unknown known]
            exact since
        | some c =>
            rw [Circuits.of_eq_of_find? known] at since
            rw [Circuits.record_of_known known, Circuits.of_set_self]
            rcases Circuit.record_ends cs.rules permit outcome now c with
              ⟨stays, _⟩ | ⟨_, ended, _⟩
            · exact since.of_stays stays
            · exact absurd since.state ended
  · rcases take_ends s cs name with ⟨stays, _⟩ | ⟨about, _⟩
    · exact since.of_stays stays
    · exact absurd about own

/-- The circuit stays open for as long as it is asked for a permit within the cooldown only. -/
theorem openSince_after {later past : List Turn} {opening : Turn}
    (timely : Timely (later ++ opening :: past)) (opens : Opens rules name opening past)
    (within : ∀ s ∈ later, s.move = .acquire name → s.now < opening.now + rules.cooldown) :
    Circuit.OpenSince opening.now ((Circuits.after rules (later ++ opening :: past)).of name) := by
  induction later with
  | nil => exact openSince_of_opens opens
  | cons s later ih =>
      have since := ih timely.1 fun t listed => within t (List.mem_cons_of_mem _ listed)
      have reached : opening.now ≤ s.now := Nat.le_trans timely.1.le_clock timely.2
      rw [List.cons_append, Circuits.after]
      by_cases asks : s.move = .acquire name
      · -- Only a question could end the open state, and this one comes within the cooldown.
        have warm : s.now - opening.now < rules.cooldown :=
          Nat.sub_lt_left_of_lt_add reached (within s List.mem_cons_self asks)
        obtain ⟨move, now⟩ := s
        cases asks
        rw [← rules_after rules (later ++ opening :: past)] at warm
        exact (take_acquire_before since warm).2.2
      · exact opened_take since asks

/-! ### Late and timely outcomes -/

/-- An outcome with a permit that was given before the latest change of state counts in the totals
only. -/
theorem take_record_of_stale {cs : Circuits} {permit : Permit}
    (stale : permit.generation ≠ (cs.of name).generation) (outcome : Outcome) (now : Span) :
    ((⟨.record name permit outcome, now⟩ : Turn).take cs).transition = none ∧
      ∃ successes failures,
        ((⟨.record name permit outcome, now⟩ : Turn).take cs).circuits.of name =
          { cs.of name with totalSuccesses := successes, totalFailures := failures } := by
  simp only [Turn.take]
  cases known : cs.byName.find? name with
  | none =>
      rw [Circuits.record_of_unknown known]
      exact ⟨rfl, _, _, rfl⟩
  | some c =>
      have circuit := Circuits.of_eq_of_find? known
      rw [circuit] at stale ⊢
      rw [Circuits.record_of_known known, Circuit.record_of_stale stale, Circuits.of_set_self]
      exact ⟨rfl, Circuit.tally_eq outcome c⟩

/-- A failed trial call of the present generation opens a half-open circuit. -/
theorem take_record_failure {cs : Circuits} {permit : Permit}
    (current : permit.generation = (cs.of name).generation)
    (stands : (cs.of name).state = .halfOpen) (now : Span) :
    (((⟨.record name permit .failure, now⟩ : Turn).take cs).circuits.of name).state = .opened := by
  simp only [Turn.take]
  cases known : cs.byName.find? name with
  | none =>
      rw [Circuits.of, Circuits.get, known] at stands
      cases stands
  | some c =>
      rw [Circuits.of_eq_of_find? known] at current stands
      rw [Circuits.record_of_known known, Circuits.of_set_self]
      exact Circuit.record_failure_of_halfOpen current stands

end

/-! ### Every run -/

/-- A circuit in any run of questions and reports, from any number of callers and with any permits.

Once a turn has opened the circuit of a service, and while no later question has come after the cooldown,
the circuit is open: a question before the end of the cooldown is refused and changes no state, no other
turn changes its state, and the first question from the end of the cooldown on is granted and makes the
circuit half-open. A failure that is reported to a half-open circuit with a permit given since its latest
change of state opens it, so that the cooldown begins anew. A permit given before the latest change of
state, and that is any permit while the circuit is open, brings its outcome into the totals and changes
nothing else. -/
theorem circuit_safety (rules : CircuitRules) (name : String) {run : List Turn} (timely : Timely run)
    (few : changes rules name run ≤ Word.max64) :
    (∀ later opening past, run = later ++ opening :: past → Opens rules name opening past →
      (∀ s ∈ later, s.move = .acquire name → s.now < opening.now + rules.cooldown) →
      ((Circuits.after rules run).of name).state = .opened ∧
      ∀ s : Turn, clock run ≤ s.now →
        (s.move = .acquire name → s.now < opening.now + rules.cooldown →
          (s.take (Circuits.after rules run)).permit = none ∧
          (s.take (Circuits.after rules run)).transition = none ∧
          ((Circuits.after rules (s :: run)).of name).state = .opened) ∧
        (s.move = .acquire name → opening.now + rules.cooldown ≤ s.now →
          (∃ permit, (s.take (Circuits.after rules run)).permit = some permit) ∧
          (s.take (Circuits.after rules run)).transition = some ⟨.opened, .halfOpen⟩ ∧
          ((Circuits.after rules (s :: run)).of name).state = .halfOpen) ∧
        (s.move ≠ .acquire name → ((Circuits.after rules (s :: run)).of name).state = .opened)) ∧
    (∀ permit now, ((Circuits.after rules run).of name).state = .halfOpen →
      (changes rules name run, permit) ∈ issued rules name run →
      Opens rules name ⟨.record name permit .failure, now⟩ run) ∧
    (∀ k permit outcome now, (k, permit) ∈ issued rules name run → k < changes rules name run →
      ((⟨.record name permit outcome, now⟩ : Turn).take (Circuits.after rules run)).transition = none ∧
      ∃ successes failures,
        (Circuits.after rules (⟨.record name permit outcome, now⟩ :: run)).of name =
          { (Circuits.after rules run).of name with
            totalSuccesses := successes, totalFailures := failures }) ∧
    (((Circuits.after rules run).of name).state = .opened →
      ∀ k permit, (k, permit) ∈ issued rules name run → k < changes rules name run) := by
  have generation := generation_after rules name run
  refine ⟨?_, ?_, ?_, ?_⟩
  · rintro later opening past rfl opens within
    have since := openSince_after timely opens within
    refine ⟨since.state, ?_⟩
    intro s next
    have reached : opening.now ≤ s.now := Nat.le_trans timely.le_clock next
    have same := rules_after rules (later ++ opening :: past)
    obtain ⟨move, now⟩ := s
    refine ⟨?_, ?_, ?_⟩
    · intro asks before
      cases asks
      have warm : now - opening.now < rules.cooldown := Nat.sub_lt_left_of_lt_add reached before
      rw [← same] at warm
      obtain ⟨refused, still, stands⟩ := take_acquire_before since warm
      exact ⟨refused, still, stands.state⟩
    · intro asks cooled
      cases asks
      have cold : rules.cooldown ≤ now - opening.now := Nat.le_sub_of_add_le' cooled
      rw [← same] at cold
      exact take_acquire_after since cold
    · intro other
      exact (opened_take since other).state
  · intro permit now stands given
    have current : permit.generation = ((Circuits.after rules run).of name).generation := by
      rw [generation, (ledger_after given).1]
    refine ⟨?_, take_record_failure current stands now⟩
    rw [stands]
    intro opened
    cases opened
  · intro k permit outcome now given old
    have stale : permit.generation ≠ ((Circuits.after rules run).of name).generation := by
      -- So few changes leave the generations of the permit and of the circuit apart.
      have present := Nat.mod_eq_of_lt (Nat.lt_succ_of_le few)
      have before := Nat.mod_eq_of_lt (Nat.lt_succ_of_le (Nat.le_trans (Nat.le_of_lt old) few))
      rw [generation, (ledger_after given).1, present, before]
      exact Nat.ne_of_lt old
    exact take_record_of_stale stale outcome now
  · intro opened k permit given
    exact (ledger_after given).2.2 opened

/-- One failure opens the circuit, for a second. -/
def strict : CircuitRules := { cooldown := 1000000000, threshold := 1 }

/-- Two calls are let through, and the one that was let through last fails. -/
def firstFailure : List Turn :=
  [⟨.record "store" ⟨0⟩ .failure, 20⟩, ⟨.acquire "store", 10⟩, ⟨.acquire "store", 0⟩]

/-- The circuit is open for a second from the failure on. The call that is still running fails as well
then, and that does not count. -/
theorem circuit_safety_firstFailure :
    Timely firstFailure ∧ changes strict "store" firstFailure ≤ Word.max64 ∧
      ((⟨.acquire "store", 1000000019⟩ : Turn).take (Circuits.after strict firstFailure)).permit = none ∧
      ((⟨.acquire "store", 1000000020⟩ : Turn).take
        (Circuits.after strict firstFailure)).transition = some ⟨.opened, .halfOpen⟩ ∧
      ((⟨.record "store" ⟨0⟩ .failure, 30⟩ : Turn).take
        (Circuits.after strict firstFailure)).transition = none := by
  have timely : Timely firstFailure := ⟨⟨⟨trivial, by decide⟩, by decide⟩, by decide⟩
  have few : changes strict "store" firstFailure ≤ Word.max64 := by decide +kernel
  obtain ⟨cooling, _, late, _⟩ := circuit_safety strict "store" timely few
  have opens : Opens strict "store" ⟨.record "store" ⟨0⟩ .failure, 20⟩
      [⟨.acquire "store", 10⟩, ⟨.acquire "store", 0⟩] := ⟨by decide +kernel, by decide +kernel⟩
  obtain ⟨_, next⟩ := cooling [] _ _ rfl opens nofun
  have refused := (next ⟨.acquire "store", 1000000019⟩ (by decide)).1 rfl (by decide)
  have granted := (next ⟨.acquire "store", 1000000020⟩ (by decide)).2.1 rfl (by decide)
  have running := late 0 ⟨0⟩ .failure 30 (by decide +kernel) (by decide +kernel)
  exact ⟨timely, few, refused.1, granted.2.1, running.1⟩

end HostControl.Invocation
