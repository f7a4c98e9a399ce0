/-
Module: HostControl.Proofs.Invocation.Balance
Purpose: What the record of a circuit amounts to in every state that it can reach. A closed circuit has seen
  fewer failures in a row than trip it; an open one has empty counts and no permit out that could move it;
  a half-open one counts exactly its permits that are still out. Permits are reported with once at most.
Main exports: outstanding, Honest, Circuit.Balanced, Balanced.acquire, Balanced.record, balanced_after,
  circuit_in_balance
-/
import HostControl.Invocation.Invoker
import HostControl.Proofs.Invocation.Run

namespace HostControl.Invocation

/-! ### Permits that are out -/

/-- A permit is known by its generation. -/
theorem count_eq_countP (generation : Nat) (out : List Permit) :
    out.count ⟨generation⟩ = out.countP (·.generation = generation) := by
  unfold List.count
  apply List.countP_congr
  rintro ⟨other⟩ _
  simp

/-- The permits for a service that a run has given and that no report has used up. -/
def outstanding (rules : CircuitRules) (name : String) : List Turn → List Permit
  | [] => []
  | s :: past =>
      match s.move with
      | .acquire called =>
          if called = name then
            (s.take (Circuits.after rules past)).permit.toList ++ outstanding rules name past
          else outstanding rules name past
      | .record called permit _ =>
          if called = name then (outstanding rules name past).erase permit
          else outstanding rules name past

/-- Every report on a service is made with a permit that is still out. -/
def Honest (rules : CircuitRules) (name : String) : List Turn → Prop
  | [] => True
  | s :: past =>
      Honest rules name past ∧
        ∀ permit outcome, s.move = .record name permit outcome → permit ∈ outstanding rules name past

/-! ### What a circuit and its permits add up to -/

namespace Circuit

/-- The counts of a circuit agree with its state and with the permits that are out. -/
structure Balanced (rules : CircuitRules) (out : List Permit) (c : Circuit) : Prop where
  recent : ∀ p ∈ out, p.generation ≤ c.generation
  closed : c.state = .closed → c.consecutiveFailures < rules.threshold ∧ c.openedAt = none
  opened : c.state = .opened → c.openedAt.isSome ∧ c.consecutiveFailures = 0 ∧
    c.consecutiveSuccesses = 0 ∧ c.requestsInWindow = 0 ∧ c.trialsAdmitted = 0 ∧ ⟨c.generation⟩ ∉ out
  halfOpen : c.state = .halfOpen →
    c.trialsAdmitted = out.count ⟨c.generation⟩ ∧ c.trialsAdmitted ≤ rules.trialCalls
  exclusive : c.consecutiveFailures = 0 ∨ c.consecutiveSuccesses = 0

variable {rules : CircuitRules} {out : List Permit} {c : Circuit} {now : Span} {permit : Permit}

theorem balanced_fresh (rules : CircuitRules) (now : Span) : Balanced rules [] (fresh now) where
  recent := nofun
  closed := fun _ => ⟨rules.threshold_pos, rfl⟩
  opened := nofun
  halfOpen := nofun
  exclusive := .inl rfl

/-- No permit is of a generation that is still to come. -/
theorem not_mem_of_recent (recent : ∀ p ∈ out, p.generation ≤ c.generation)
    (room : c.generation < Word.max64) : ⟨Word.following c.generation⟩ ∉ out := by
  intro member
  have bound := recent _ member
  rw [Word.following_eq room] at bound
  exact Nat.not_succ_le_self _ bound

/-- A circuit that goes to another state begins with empty counts, and none of the permits that are out is
of its new generation. -/
theorem balanced_moved (recent : ∀ p ∈ out, p.generation ≤ c.generation)
    (room : c.generation < Word.max64) (target : CircuitState) (now : Span) :
    Balanced rules out (c.moved target now) where
  recent := by
    intro p member
    have bound := recent p member
    simp only [Circuit.moved, Word.following_eq room]
    omega
  closed := by
    intro stands
    refine ⟨rules.threshold_pos, ?_⟩
    simp_all [Circuit.moved]
  opened := by
    intro stands
    have stands : target = .opened := stands
    refine ⟨?_, rfl, rfl, rfl, rfl, not_mem_of_recent recent room⟩
    simp [Circuit.moved, stands]
  halfOpen := by
    intro _
    refine ⟨?_, Nat.zero_le _⟩
    exact (List.count_eq_zero.2 (not_mem_of_recent recent room)).symm
  exclusive := .inl rfl

/-! ### Questions for a permit -/

/-- A new window of a closed circuit has no counts, and otherwise nothing changes. -/
theorem Balanced.renew (balanced : Balanced rules out c) (now : Span) :
    Balanced rules out (c.renew rules now) := by
  unfold Circuit.renew
  split
  · next elapsed =>
      have stands : c.state = .closed := by
        rw [windowOver, Bool.and_eq_true, decide_eq_true_eq] at elapsed
        exact elapsed.1
      exact
        { recent := balanced.recent
          closed := fun _ => ⟨rules.threshold_pos, (balanced.closed stands).2⟩
          opened := fun other => absurd (stands.symm.trans other) nofun
          halfOpen := fun other => absurd (stands.symm.trans other) nofun
          exclusive := .inl rfl }
  · exact balanced

/-- A permit that is given takes a place in the count of a half-open circuit. -/
theorem Balanced.admitted (balanced : Balanced rules out c) (bound : rules.trialCalls ≤ Word.max32)
    (room : c.hasRoom rules = true) : Balanced rules (⟨c.generation⟩ :: out) c.admitted where
  recent := by
    intro p member
    rcases List.mem_cons.1 member with rfl | before
    · exact Nat.le_refl _
    · exact balanced.recent p before
  closed := balanced.closed
  opened := by
    intro stands
    have stands : c.state = .opened := stands
    simp [hasRoom, stands] at room
  halfOpen := by
    intro stands
    have stands : c.state = .halfOpen := stands
    obtain ⟨exact, _⟩ := balanced.halfOpen stands
    have free : c.trialsAdmitted < rules.trialCalls := by simpa [hasRoom, stands] using room
    have counted : c.admitted.trialsAdmitted = c.trialsAdmitted + 1 := by
      rw [Circuit.admitted]
      simp only [stands, if_true]
      exact Word.count32_eq (Nat.lt_of_lt_of_le free bound)
    rw [counted]
    refine ⟨?_, free⟩
    rw [exact]
    exact List.count_cons_self.symm
  exclusive := balanced.exclusive

theorem Balanced.refused (balanced : Balanced rules out c) : Balanced rules out c.refused :=
  ⟨balanced.recent, balanced.closed, balanced.opened, balanced.halfOpen, balanced.exclusive⟩

/-- A question for a permit keeps the balance, with the permit that it gives among those that are out. -/
theorem Balanced.acquire (balanced : Balanced rules out c) (bound : rules.trialCalls ≤ Word.max32)
    (few : (c.acquire rules now).2.2.state ≠ c.state → c.generation < Word.max64) :
    Balanced rules ((c.acquire rules now).1.toList ++ out) (c.acquire rules now).2.2 := by
  rcases acquire_cases rules now c with ⟨cooled, same⟩ | ⟨_, room, same⟩ | ⟨_, _, same⟩
  · rw [same] at few ⊢
    have stands := opened_of_cooled cooled
    have left : c.generation < Word.max64 := by
      apply few
      rw [stands]
      exact nofun
    refine (balanced_moved balanced.recent left .halfOpen now).admitted bound ?_
    simpa [hasRoom, Circuit.moved, resetWindow] using rules.trialCalls_pos
  · rw [same]
    rw [← hasRoom_renew rules now] at room
    rw [← (stays_renew rules now c).generation]
    exact (balanced.renew now).admitted bound room
  · rw [same]
    exact balanced.refused

/-- A half-open circuit refuses exactly when all its trial calls are given away. -/
theorem Balanced.acquire_eq_none_iff (balanced : Balanced rules out c) (stands : c.state = .halfOpen) :
    (c.acquire rules now).1 = none ↔ c.trialsAdmitted = rules.trialCalls := by
  have within := (balanced.halfOpen stands).2
  rcases acquire_cases rules now c with ⟨cooled, _⟩ | ⟨_, room, same⟩ | ⟨_, full, same⟩
  · exact absurd (stands.symm.trans (opened_of_cooled cooled)) nofun
  · rw [same]
    have free : c.trialsAdmitted < rules.trialCalls := by simpa [hasRoom, stands] using room
    simp [Nat.ne_of_lt free]
  · rw [same]
    have used : rules.trialCalls ≤ c.trialsAdmitted := by simpa [hasRoom, stands] using full
    simp [Nat.le_antisymm within used]

/-! ### Reported outcomes -/

theorem Balanced.tally (balanced : Balanced rules out c) (outcome : Outcome) :
    Balanced rules out (c.tally outcome) := by
  obtain ⟨successes, failures, same⟩ := tally_eq outcome c
  rw [same]
  exact ⟨balanced.recent, balanced.closed, balanced.opened, balanced.halfOpen, balanced.exclusive⟩

/-- A permit may be used up where it does not count: it is of an earlier generation, or the circuit is not
half-open. -/
theorem Balanced.erase (balanced : Balanced rules out c)
    (idle : permit.generation ≠ c.generation ∨ c.state ≠ .halfOpen) :
    Balanced rules (out.erase permit) c where
  recent := fun p member => balanced.recent p (List.mem_of_mem_erase member)
  closed := balanced.closed
  opened := by
    intro stands
    obtain ⟨since, failures, successes, requests, trials, none⟩ := balanced.opened stands
    exact ⟨since, failures, successes, requests, trials, fun member => none (List.mem_of_mem_erase member)⟩
  halfOpen := by
    intro stands
    obtain ⟨exact, within⟩ := balanced.halfOpen stands
    refine ⟨?_, within⟩
    rcases idle with stale | other
    · have apart : (⟨c.generation⟩ : Permit) ≠ permit := fun same => stale (same ▸ rfl)
      rw [exact, List.count_erase_of_ne apart]
    · exact absurd stands other
  exclusive := balanced.exclusive

/-- A signal that ends a call keeps the balance, if the counts of a closed circuit that it leaves closed
do. -/
theorem balanced_signal {s : Signal} (ended : s ≠ .cooldownElapsed)
    (recent : ∀ p ∈ out, p.generation ≤ c.generation) (shut : c.state ≠ .opened)
    (stays : c.state = .closed → c.state.next s (c.tripped rules) = .closed →
      c.consecutiveFailures < rules.threshold ∧ c.openedAt = none)
    (exclusive : c.consecutiveFailures = 0 ∨ c.consecutiveSuccesses = 0)
    (few : (c.signal rules s now).1.state ≠ c.state → c.generation < Word.max64) :
    Balanced rules (out.erase ⟨c.generation⟩) (c.signal rules s now).1 := by
  rcases signal_ends rules s now c with ⟨next, same⟩ | ⟨target, _, edge, done⟩
  · have closed : c.state = .closed := by
      cases stands : c.state with
      | closed => rfl
      | opened => exact absurd stands shut
      | halfOpen =>
          rw [stands] at next
          cases s with
          | success => cases next
          | failure => cases next
          | cooldownElapsed => exact absurd rfl ended
    rw [same]
    exact
      { recent := fun p member => recent p (List.mem_of_mem_erase member)
        closed := fun _ => stays closed (next.trans closed)
        opened := fun stands => absurd stands shut
        halfOpen := fun stands => absurd (closed.symm.trans stands) nofun
        exclusive }
  · rw [done] at few ⊢
    have left := few edge.ne
    refine (balanced_moved recent left target now).erase (.inl ?_)
    rw [Circuit.moved, Word.following_eq left]
    exact Nat.ne_of_lt (Nat.lt_succ_self _)

/-- A circuit that has counted a success, and one that has counted a failure. -/
def succeeded (c : Circuit) : Circuit :=
  { c with consecutiveSuccesses := Word.count32 c.consecutiveSuccesses, consecutiveFailures := 0 }

def failed (c : Circuit) : Circuit :=
  { c with consecutiveFailures := Word.count32 c.consecutiveFailures, consecutiveSuccesses := 0 }

theorem judge_success : c.judge rules .success now = c.succeeded.signal rules .success now := rfl

theorem judge_failure : c.judge rules .failure now = c.failed.signal rules .failure now := rfl

/-- An outcome that is judged keeps the balance, with its permit used up. -/
theorem Balanced.judge (balanced : Balanced rules out c) (given : ⟨c.generation⟩ ∈ out)
    {outcome : Outcome}
    (few : (c.judge rules outcome now).1.state ≠ c.state → c.generation < Word.max64) :
    Balanced rules (out.erase ⟨c.generation⟩) (c.judge rules outcome now).1 := by
  have shut : c.state ≠ .opened := fun stands => (balanced.opened stands).2.2.2.2.2 given
  cases outcome with
  | success =>
      rw [judge_success] at few ⊢
      refine balanced_signal (c := c.succeeded) (by decide) balanced.recent shut ?_ (.inl rfl) few
      intro stands _
      exact ⟨rules.threshold_pos, (balanced.closed stands).2⟩
  | failure =>
      rw [judge_failure] at few ⊢
      refine balanced_signal (c := c.failed) (by decide) balanced.recent shut ?_ (.inr rfl) few
      intro stands next
      refine ⟨?_, (balanced.closed stands).2⟩
      -- A closed circuit that a failure leaves closed has not tripped.
      simpa [stands, CircuitState.next, tripped] using next
  | abandoned =>
      by_cases stands : c.state = .halfOpen
      · obtain ⟨exact, within⟩ := balanced.halfOpen stands
        simp only [Circuit.judge, stands, if_true]
        exact
          { recent := fun p member => balanced.recent p (List.mem_of_mem_erase member)
            closed := fun stands => by cases stands
            opened := fun stands => by cases stands
            halfOpen := fun _ => ⟨by simp only [exact, List.count_erase_self],
              Nat.le_trans (Nat.sub_le _ _) within⟩
            exclusive := balanced.exclusive }
      · simp only [Circuit.judge, stands, if_false]
        exact balanced.erase (.inr stands)

/-- A report keeps the balance, with its permit used up. -/
theorem Balanced.record (balanced : Balanced rules out c) (given : permit ∈ out) {outcome : Outcome}
    (few : (c.record rules permit outcome now).1.state ≠ c.state → c.generation < Word.max64) :
    Balanced rules (out.erase permit) (c.record rules permit outcome now).1 := by
  have counted := stays_tally outcome c
  have tallied := balanced.tally outcome
  by_cases current : permit.generation = c.generation
  · have same : permit = ⟨(c.tally outcome).generation⟩ := by
      rw [counted.generation, ← current]
    rw [record_of_current current, ← counted.state, ← counted.generation] at few
    rw [record_of_current current]
    rw [same] at given ⊢
    exact tallied.judge given few
  · rw [record_of_stale current]
    refine tallied.erase (.inl ?_)
    rwa [counted.generation]

end Circuit

/-! ### Turns -/

namespace Circuits

variable {rules : CircuitRules} {cs : Circuits} {name : String} {now : Span} {out : List Permit}

/-- The circuit that is made on first use is in balance if the one that stands for it is. -/
theorem balanced_get (balanced : Circuit.Balanced rules out (cs.of name)) (now : Span) :
    Circuit.Balanced rules out (cs.get name now) := by
  unfold of get at *
  cases known : cs.byName.find? name with
  | none =>
      rw [known] at balanced
      exact ⟨balanced.recent, balanced.closed, balanced.opened, balanced.halfOpen, balanced.exclusive⟩
  | some c =>
      rw [known] at balanced
      exact balanced

/-- A half-open circuit has been called before. -/
theorem get_of_halfOpen (stands : (cs.of name).state = .halfOpen) (now : Span) :
    cs.get name now = cs.of name := by
  unfold of get at *
  cases known : cs.byName.find? name with
  | none =>
      rw [known] at stands
      cases stands
  | some c => rfl

theorem balanced_acquire (same : cs.rules = rules) (bound : rules.trialCalls ≤ Word.max32)
    (balanced : Circuit.Balanced rules out (cs.of name))
    (few : ((cs.acquire name now).2.2.of name).state ≠ (cs.of name).state →
      (cs.of name).generation < Word.max64) :
    Circuit.Balanced rules ((cs.acquire name now).1.toList ++ out)
      ((cs.acquire name now).2.2.of name) := by
  subst same
  rw [of_acquire] at few ⊢
  have first := stays_get name now cs
  refine (balanced_get balanced now).acquire bound ?_
  rw [first.state, first.generation]
  exact few

theorem balanced_record {permit : Permit} {outcome : Outcome} (same : cs.rules = rules)
    (given : permit ∈ out) (balanced : Circuit.Balanced rules out (cs.of name))
    (few : ((cs.record name permit outcome now).1.of name).state ≠ (cs.of name).state →
      (cs.of name).generation < Word.max64) :
    Circuit.Balanced rules (out.erase permit) ((cs.record name permit outcome now).1.of name) := by
  subst same
  cases known : cs.byName.find? name with
  | none =>
      -- No call has asked for this service, so the circuit that stands for it is closed.
      have closed : (cs.of name).state = .closed := by
        rw [of, get, known]
        rfl
      rw [record_of_unknown known]
      refine balanced.erase (.inr ?_)
      rw [closed]
      decide
  | some c =>
      rw [of_eq_of_find? known] at balanced few
      rw [record_of_known known, of_set_self] at few ⊢
      exact balanced.record given few

end Circuits

/-! ### Every run -/

section

variable {rules : CircuitRules} {name : String}

/-- A run with few changes has left room for the change that its last turn brings about. -/
theorem generation_lt_of_few {s : Turn} {past : List Turn}
    (few : changes rules name (s :: past) ≤ Word.max64)
    (moved : ((Circuits.after rules (s :: past)).of name).state ≠
      ((Circuits.after rules past).of name).state) :
    ((Circuits.after rules past).of name).generation < Word.max64 := by
  rw [changes, if_neg moved] at few
  rw [generation_after, Nat.mod_eq_of_lt (by omega)]
  omega

/-- Every honest run keeps the circuit of a service in balance with the permits that are out. -/
theorem balanced_after (bound : rules.trialCalls ≤ Word.max32) {run : List Turn}
    (honest : Honest rules name run) (few : changes rules name run ≤ Word.max64) :
    Circuit.Balanced rules (outstanding rules name run) ((Circuits.after rules run).of name) := by
  induction run with
  | nil => exact Circuit.balanced_fresh rules 0
  | cons s past ih =>
      have before := ih honest.1 (Nat.le_trans (changes_le_cons rules name s past) few)
      have left := generation_lt_of_few few
      have same := rules_after rules past
      by_cases own : s.move.name = name
      · obtain ⟨move, now⟩ := s
        subst own
        cases move with
        | acquire name =>
            simp only [outstanding, Move.name, if_true]
            exact Circuits.balanced_acquire same bound before left
        | record name permit outcome =>
            have given := honest.2 permit outcome rfl
            simp only [outstanding, Move.name, if_true]
            exact Circuits.balanced_record same given before left
      · have circuit :
            (Circuits.after rules (s :: past)).of name = (Circuits.after rules past).of name := by
          rw [Circuits.of, Circuits.of, Circuits.get, Circuits.get, Circuits.after, find?_take_of_ne own]
        have permits : outstanding rules name (s :: past) = outstanding rules name past := by
          obtain ⟨move, now⟩ := s
          cases move with
          | acquire called => exact if_neg own
          | record called permit outcome => exact if_neg own
        rw [circuit, permits]
        exact before

/-- The record of a circuit in every run of questions and reports, from any number of callers and at any
times, in which permits are reported with once at most.

A closed circuit has seen fewer failures in a row than the configuration allows, and is not open since any
time. An open one is open since some time, its counts are all zero, and no permit that is out is of its
generation. A half-open one counts exactly the permits of its generation that are out, no more than the
configuration allows, and refuses a question exactly when it counts that many. Never are there failures
and successes in a row at once. -/
theorem circuit_in_balance (breaker : Config.Breaker) (retry : Config.Retry) (name : String)
    {rules : CircuitRules} (configured : (Invoker.of breaker retry).circuits.rules = rules)
    {run : List Turn} (honest : Honest rules name run) (few : changes rules name run ≤ Word.max64)
    {c : Circuit} (present : (Circuits.after rules run).of name = c) :
    (c.state = .closed →
      c.consecutiveFailures < max breaker.failureThreshold.toNat 1 ∧ c.openedAt = none) ∧
    (c.state = .opened →
      c.openedAt.isSome ∧ c.consecutiveFailures = 0 ∧ c.consecutiveSuccesses = 0 ∧
      c.requestsInWindow = 0 ∧ c.trialsAdmitted = 0 ∧
      ∀ permit ∈ outstanding rules name run, permit.generation ≠ c.generation) ∧
    (c.state = .halfOpen →
      c.trialsAdmitted = (outstanding rules name run).countP (·.generation = c.generation) ∧
      c.trialsAdmitted ≤ max breaker.maxRequests.toNat 1 ∧
      ∀ now, ((⟨.acquire name, now⟩ : Turn).take (Circuits.after rules run)).permit = none ↔
        c.trialsAdmitted = max breaker.maxRequests.toNat 1) ∧
    (c.consecutiveFailures = 0 ∨ c.consecutiveSuccesses = 0) := by
  have trials : rules.trialCalls = max breaker.maxRequests.toNat 1 := by rw [← configured]; rfl
  have threshold : rules.threshold = max breaker.failureThreshold.toNat 1 := by rw [← configured]; rfl
  have bound : rules.trialCalls ≤ Word.max32 := by
    have word := breaker.maxRequests.toNat_lt
    rw [trials, Word.max32]
    omega
  have balanced := balanced_after bound honest few
  rw [present] at balanced
  rw [← trials, ← threshold]
  refine ⟨balanced.closed, ?_, ?_, balanced.exclusive⟩
  · intro stands
    obtain ⟨since, failures, successes, requests, admitted, none⟩ := balanced.opened stands
    refine ⟨since, failures, successes, requests, admitted, ?_⟩
    rintro ⟨generation⟩ member rfl
    exact none member
  · intro stands
    obtain ⟨exact, within⟩ := balanced.halfOpen stands
    refine ⟨exact.trans (count_eq_countP _ _), within, ?_⟩
    intro now
    have same : (Circuits.after rules run).get name now = c :=
      present ▸ Circuits.get_of_halfOpen (present.symm ▸ stands) now
    simp only [Turn.take, Circuits.acquire, same, rules_after]
    exact balanced.acquire_eq_none_iff stands

end

/-- One failure opens the circuit for a second, and then two trial calls are let through. -/
def pairOfTrials : Config.Breaker :=
  { maxRequests := 2, intervalSeconds := 0, cooldownSeconds := 1, failureThreshold := 1 }

/-- After the failure of the first call and the cooldown, two trial calls are made and one of them is given
up for another one. The second call, which was let through before the failure, succeeds at last. -/
def lateSuccess : List Turn :=
  [⟨.record "store" ⟨0⟩ .success, 1000000050⟩, ⟨.acquire "store", 1000000040⟩,
    ⟨.record "store" ⟨2⟩ .abandoned, 1000000030⟩, ⟨.acquire "store", 1000000020⟩,
    ⟨.acquire "store", 1000000010⟩, ⟨.record "store" ⟨0⟩ .failure, 10⟩, ⟨.acquire "store", 0⟩,
    ⟨.acquire "store", 0⟩]

/-- Both trial calls are out, the late success has not changed that, and a third one is refused. -/
theorem circuit_in_balance_lateSuccess :
    ∃ rules c, (Invoker.of pairOfTrials {}).circuits.rules = rules ∧
      Honest rules "store" lateSuccess ∧ changes rules "store" lateSuccess ≤ Word.max64 ∧
      (Circuits.after rules lateSuccess).of "store" = c ∧ c.state = .halfOpen ∧
      c.trialsAdmitted = 2 ∧
      ((⟨.acquire "store", 1000000060⟩ : Turn).take (Circuits.after rules lateSuccess)).permit = none := by
  have honest : Honest (Invoker.of pairOfTrials {}).circuits.rules "store" lateSuccess := by
    refine ⟨⟨⟨⟨⟨⟨⟨⟨trivial, nofun⟩, nofun⟩, ?_⟩, nofun⟩, nofun⟩, ?_⟩, nofun⟩, ?_⟩
    all_goals
      rintro _ _ ⟨⟩
      decide +kernel
  have few : changes (Invoker.of pairOfTrials {}).circuits.rules "store" lateSuccess ≤ Word.max64 := by
    decide +kernel
  obtain ⟨_, _, trial, _⟩ := circuit_in_balance pairOfTrials {} "store" rfl honest few rfl
  obtain ⟨exact, _, refuses⟩ := trial (by decide +kernel)
  have both : ((Circuits.after (Invoker.of pairOfTrials {}).circuits.rules lateSuccess).of
      "store").trialsAdmitted = 2 := exact.trans (by decide +kernel)
  exact ⟨_, _, rfl, honest, few, rfl, by decide +kernel, both, (refuses 1000000060).2 both⟩

end HostControl.Invocation
