/-
Module: HostControl.Proofs.Invocation.Lockout
Purpose: Who can lock a service out. While no call to it goes on and the cooldown is over, a circuit refuses a call
  only if it is half-open and all its trial calls were dropped by their callers. Their places are never given
  back, so that the circuit then refuses every call that there will ever be.
Main exports: Circuit.Covered, covered_after, full_of_refused, Circuits.Locked, Traffic.Locked, Traffic.lost,
  lockout_iff_trials_dropped
-/
import HostControl.Proofs.Invocation.Traffic

namespace HostControl.Invocation

/-! ### Trial calls and permits that are out -/

namespace Circuit

variable {rules : CircuitRules} {out : List Permit} {c : Circuit} {now : Span} {permit : Permit}

/-- A half-open circuit counts no more trial calls than there are permits of its generation out. -/
def Covered (out : List Permit) (c : Circuit) : Prop :=
  c.state = .halfOpen → c.trialsAdmitted ≤ out.count ⟨c.generation⟩

theorem covered_moved (out : List Permit) (target : CircuitState) (now : Span) (c : Circuit) :
    Covered out (c.moved target now) := fun _ => Nat.zero_le _

theorem Covered.renew (covered : Covered out c) (now : Span) : Covered out (c.renew rules now) := by
  unfold Circuit.renew
  split
  · exact fun _ => Nat.zero_le _
  · exact covered

/-- A trial call that is let through takes its permit with it. -/
theorem Covered.admitted (covered : Covered out c) : Covered (⟨c.generation⟩ :: out) c.admitted := by
  intro stands
  have stands : c.state = .halfOpen := stands
  have one_more : c.admitted.trialsAdmitted ≤ c.trialsAdmitted + 1 := by
    simp only [Circuit.admitted, stands, if_true]
    exact Nat.min_le_left _ _
  have counted : (⟨c.generation⟩ :: out : List Permit).count ⟨c.generation⟩ =
      out.count ⟨c.generation⟩ + 1 := List.count_cons_self
  exact counted ▸ Nat.le_trans one_more (Nat.succ_le_succ (covered stands))

theorem Covered.acquire (covered : Covered out c) (rules : CircuitRules) (now : Span) :
    Covered ((c.acquire rules now).1.toList ++ out) (c.acquire rules now).2.2 := by
  rcases acquire_cases rules now c with ⟨_, same⟩ | ⟨_, _, same⟩ | ⟨_, _, same⟩
  · rw [same]
    exact (covered_moved out .halfOpen now c).admitted
  · rw [same, ← (stays_renew rules now c).generation]
    exact (covered.renew now).admitted
  · rw [same]
    exact covered

/-- No end of a call leaves a circuit half-open by a signal. -/
theorem covered_signal {s : Signal} (ended : s ≠ .cooldownElapsed) (out : List Permit) :
    Covered out (c.signal rules s now).1 := by
  rcases signal_ends rules s now c with ⟨next, same⟩ | ⟨target, _, _, done⟩
  · rw [same]
    intro stands
    rw [stands] at next
    cases s with
    | success => cases next
    | failure => cases next
    | cooldownElapsed => exact absurd rfl ended
  · rw [done]
    exact covered_moved out target now c

theorem Covered.tally (covered : Covered out c) (outcome : Outcome) : Covered out (c.tally outcome) := by
  obtain ⟨successes, failures, same⟩ := tally_eq outcome c
  rw [same]
  exact covered

/-- A call that is reported gives its place back, if it has one. -/
theorem Covered.record (covered : Covered out c) (outcome : Outcome) :
    Covered (out.erase permit) (c.record rules permit outcome now).1 := by
  have tallied := covered.tally outcome
  by_cases current : permit.generation = c.generation
  · rw [record_of_current current]
    cases outcome with
    | success =>
      rw [judge_success]
      exact covered_signal (by decide) _
    | failure =>
      rw [judge_failure]
      exact covered_signal (by decide) _
    | abandoned =>
      by_cases stands : c.state = .halfOpen
      · have same : permit = ⟨c.generation⟩ := congrArg Permit.mk current
        simp only [Circuit.tally, judge, stands, if_true]
        intro _
        rw [same, List.count_erase_self]
        exact Nat.sub_le_sub_right (covered stands) 1
      · simp only [Circuit.tally, judge, stands, if_false]
        intro other
        exact absurd other stands
  · rw [record_of_stale current]
    intro stands
    have apart : (⟨(c.tally outcome).generation⟩ : Permit) ≠ permit := by
      intro same
      rw [(stays_tally outcome c).generation] at same
      exact current (same ▸ rfl)
    rw [List.count_erase_of_ne apart]
    exact tallied stands

end Circuit

section

variable {rules : CircuitRules} {name : String} {run : List Turn} {now : Span}

/-- A turn of another service concerns neither the circuit nor its permits. -/
theorem turn_of_other (rules : CircuitRules) {s : Turn} (other : s.move.name ≠ name) (past : List Turn) :
    (Circuits.after rules (s :: past)).of name = (Circuits.after rules past).of name ∧
      outstanding rules name (s :: past) = outstanding rules name past := by
  constructor
  · rw [Circuits.of, Circuits.of, Circuits.get, Circuits.get, Circuits.after, find?_take_of_ne other]
  · obtain ⟨move, now⟩ := s
    cases move with
    | acquire called => exact if_neg other
    | record called permit outcome => exact if_neg other

theorem covered_acquire {cs : Circuits} {out : List Permit} (covered : Circuit.Covered out (cs.of name))
    (now : Span) :
    Circuit.Covered ((cs.acquire name now).1.toList ++ out) ((cs.acquire name now).2.2.of name) := by
  have present : Circuit.Covered out (cs.get name now) := by
    unfold Circuits.of Circuits.get at *
    cases known : cs.byName.find? name with
    | none =>
      intro stands
      cases stands
    | some c =>
      rw [known] at covered
      exact covered
  rw [Circuits.of_acquire]
  exact present.acquire cs.rules now

theorem covered_record {cs : Circuits} {out : List Permit} (covered : Circuit.Covered out (cs.of name))
    (permit : Permit) (outcome : Outcome) (now : Span) :
    Circuit.Covered (out.erase permit) ((cs.record name permit outcome now).1.of name) := by
  cases known : cs.byName.find? name with
  | none =>
    rw [Circuits.record_of_unknown known, Circuits.of, Circuits.get, known]
    intro stands
    cases stands
  | some c =>
    rw [Circuits.of_eq_of_find? known] at covered
    rw [Circuits.record_of_known known, Circuits.of_set_self]
    exact covered.record outcome

/-- In every run the trial calls of a half-open circuit have permits that are out. -/
theorem covered_after (rules : CircuitRules) (name : String) (run : List Turn) :
    Circuit.Covered (outstanding rules name run) ((Circuits.after rules run).of name) := by
  induction run with
  | nil =>
    intro stands
    cases stands
  | cons s past ih =>
    by_cases own : s.move.name = name
    · obtain ⟨move, now⟩ := s
      cases move with
      | acquire called =>
        have own : called = name := own
        rw [outstanding_acquire, if_pos own, own]
        exact covered_acquire ih now
      | record called permit outcome =>
        have own : called = name := own
        rw [outstanding_record, if_pos own, own]
        exact covered_record ih permit outcome now
    · obtain ⟨circuit, permits⟩ := turn_of_other rules own past
      rw [circuit, permits]
      exact ih

/-- Once the cooldown is over, only a half-open circuit without room refuses a call. -/
theorem full_of_refused (cooled : lastChange rules name run + rules.cooldown ≤ now)
    (refused : ((Circuits.after rules run).acquire name now).1 = none) :
    ((Circuits.after rules run).of name).state = .halfOpen ∧
      rules.trialCalls ≤ ((Circuits.after rules run).of name).trialsAdmitted := by
  have same := rules_after rules run
  have first := Circuits.stays_get name now (Circuits.after rules run)
  have refused : (((Circuits.after rules run).get name now).acquire
      (Circuits.after rules run).rules now).1 = none := refused
  rw [same] at refused
  rcases Circuit.acquire_cases rules now ((Circuits.after rules run).get name now) with
    ⟨_, given⟩ | ⟨_, _, given⟩ | ⟨warm, full, _⟩
  · rw [given] at refused
    cases refused
  · rw [given] at refused
    cases refused
  · cases stands : ((Circuits.after rules run).of name).state with
    | closed => simp [Circuit.hasRoom, first.state, stands] at full
    | opened =>
      have since := (openSince_lastChange stands).of_stays first
      have cold : rules.cooldown ≤ now - lastChange rules name run := Nat.le_sub_of_add_le' cooled
      rw [since.cooled_eq, decide_eq_false_iff_not] at warm
      exact absurd cold warm
    | halfOpen =>
      rw [Circuits.get_of_halfOpen stands] at full
      refine ⟨rfl, ?_⟩
      simpa [Circuit.hasRoom, stands] using full

end

/-! ### Locked for good -/

/-- The circuit of a service is half-open and has no room. -/
structure Circuits.Locked (name : String) (cs : Circuits) : Prop where
  state : (cs.of name).state = .halfOpen
  full : cs.rules.trialCalls ≤ (cs.of name).trialsAdmitted

namespace Circuits

variable {name : String} {cs : Circuits}

/-- A question for a permit is refused at any time, and counts as refused. -/
theorem Locked.acquire_eq (locked : Locked name cs) (now : Span) :
    (cs.get name now).acquire cs.rules now = (none, none, (cs.of name).refused) := by
  have here : cs.get name now = cs.of name := get_of_halfOpen locked.state now
  rw [here]
  rcases Circuit.acquire_cases cs.rules now (cs.of name) with ⟨cooled, _⟩ | ⟨_, room, _⟩ | ⟨_, _, same⟩
  · have opened := Circuit.opened_of_cooled cooled
    rw [locked.state] at opened
    cases opened
  · have free : (cs.of name).trialsAdmitted < cs.rules.trialCalls := by
      simpa [Circuit.hasRoom, locked.state] using room
    exact absurd locked.full (Nat.not_le_of_lt free)
  · exact same

theorem Locked.refuses (locked : Locked name cs) (now : Span) : (cs.acquire name now).1 = none :=
  congrArg (·.1) (locked.acquire_eq now)

/-- Only a report on the service could give a place back. -/
theorem Locked.take (locked : Locked name cs) {s : Turn}
    (silent : ∀ permit outcome, s.move ≠ .record name permit outcome) : Locked name (s.take cs).circuits := by
  have same := rules_take s cs
  by_cases own : s.move.name = name
  · obtain ⟨move, now⟩ := s
    cases move with
    | acquire called =>
      have own : called = name := own
      have after : (cs.acquire name now).2.2.of name = (cs.of name).refused := by
        rw [of_acquire, locked.acquire_eq now]
      rw [own]
      refine ⟨?_, ?_⟩
      · exact (congrArg Circuit.state after).trans locked.state
      · exact Nat.le_trans locked.full (Nat.le_of_eq (congrArg Circuit.trialsAdmitted after).symm)
    | record called permit outcome =>
      have own : called = name := own
      exact absurd (own ▸ rfl) (silent permit outcome)
  · have circuit : (s.take cs).circuits.of name = cs.of name := by
      rw [of, of, get, get, find?_take_of_ne own]
    refine ⟨?_, ?_⟩
    · rw [circuit]
      exact locked.state
    · rw [same, circuit]
      exact locked.full

end Circuits

namespace Traffic

variable {α : Type} {name : String} {t next : Traffic α} {turns : List Turn}

/-- A service is locked out: its circuit is, and no call to it goes on that could give a place back. -/
structure Locked (name : String) (t : Traffic α) : Prop where
  circuits : t.invoker.circuits.Locked name
  idle : ∀ e ∈ t.going, e.1.service ≠ name

theorem Locked.step (locked : Locked name t) (step : Step t turns next) : Locked name next := by
  have circuits := step.circuits_eq
  cases step with
  | @admits call now permit events inv entered =>
    have given := (acquire_of_admitted entered).1
    have other : call.service ≠ name := by
      intro own
      rw [own, locked.circuits.refuses now] at given
      cases given
    refine ⟨circuits ▸ locked.circuits.take nofun, ?_⟩
    intro e member
    cases member with
    | head => exact other
    | tail _ before => exact locked.idle e before
  | refuses call now entered => exact ⟨circuits ▸ locked.circuits.take nofun, locked.idle⟩
  | @settles call permit rest account now going =>
    have other : call.service ≠ name := locked.idle _ (going.mem_iff.2 List.mem_cons_self)
    refine ⟨circuits ▸ locked.circuits.take ?_, ?_⟩
    · intro used outcome reports
      cases reports
      exact other rfl
    · exact fun e member => locked.idle e (going.mem_iff.2 (List.mem_cons_of_mem _ member))
  | @drops call permit rest going =>
    exact ⟨locked.circuits, fun e member => locked.idle e (going.mem_iff.2 (List.mem_cons_of_mem _ member))⟩

/-- A service that is locked out stays so, whatever happens. -/
theorem Locked.leads (locked : Locked name t) (leads : Leads t turns next) : Locked name next := by
  induction leads with
  | refl => exact locked
  | step before step ih => exact ih.step step

/-- The calls to a service that were dropped in the present generation of its circuit. -/
def lost (name : String) (t : Traffic α) : Nat :=
  (permitsTo name t.dropped).count ⟨(t.invoker.circuits.of name).generation⟩

end Traffic

/-! ### Every run -/

section

variable {α : Type} {rules : CircuitRules} {name : String} {turns : List Turn} {t : Traffic α}

namespace Traffic.Follows

/-- While no call to a service goes on, the permits for it that are out are those of dropped calls. -/
theorem count_eq_lost (follows : Follows rules name turns t) (idle : ∀ e ∈ t.going, e.1.service ≠ name) :
    (outstanding rules name turns).count ⟨((Circuits.after rules turns).of name).generation⟩ = t.lost name := by
  have permits := follows.permits
  rw [permitsTo_idle idle, List.nil_append] at permits
  rw [permits.count_eq, Traffic.lost, follows.circuits]

/-- A service that refuses a call then, after the cooldown, is locked out, and its trial calls were dropped. -/
theorem locked_of_refused (follows : Follows rules name turns t) (idle : ∀ e ∈ t.going, e.1.service ≠ name)
    {now : Span} (cooled : lastChange rules name turns + rules.cooldown ≤ now)
    (refused : (t.invoker.circuits.acquire name now).1 = none) :
    t.Locked name ∧ rules.trialCalls ≤ t.lost name := by
  rw [follows.circuits] at refused
  obtain ⟨stands, full⟩ := full_of_refused cooled refused
  have trials := covered_after rules name turns stands
  rw [follows.count_eq_lost idle] at trials
  refine ⟨⟨⟨?_, ?_⟩, idle⟩, Nat.le_trans full trials⟩
  · rw [follows.circuits]
    exact stands
  · rw [follows.circuits, rules_after]
    exact full

/-- With few changes of state a half-open circuit counts exactly the dropped calls. -/
theorem refuses_iff (follows : Follows rules name turns t) (idle : ∀ e ∈ t.going, e.1.service ≠ name)
    (bound : rules.trialCalls ≤ Word.max32) (few : changes rules name turns ≤ Word.max64)
    (stands : (t.invoker.circuits.of name).state = .halfOpen) (now : Span) :
    (t.invoker.circuits.acquire name now).1 = none ↔ t.lost name = rules.trialCalls := by
  have balanced := balanced_after bound follows.honest few
  rw [follows.circuits] at stands ⊢
  have here := Circuits.get_of_halfOpen stands now
  have answer := @Circuit.Balanced.acquire_eq_none_iff rules _ _ now balanced stands
  rw [(balanced.halfOpen stands).1, follows.count_eq_lost idle] at answer
  rw [Circuits.acquire, here, rules_after]
  exact answer

end Traffic.Follows

/-- Who can lock a service out. Calls to any services go on at once, and each of them returns, or its token
fires, or its caller drops it. While no call to a service goes on, and the cooldown has passed since its circuit
changed its state last, a call is admitted unless the circuit is half-open and its callers have dropped at
least as many calls of the present generation as there are trial calls. Then no call to the service will ever
be admitted again, whatever happens. A caller that drops no call locks no service out; and as long as a word
holds the number of changes, the circuit refuses exactly when all its trial calls were dropped. -/
theorem lockout_iff_trials_dropped (breaker : Config.Breaker) (retry : Config.Retry) (name : String)
    (configured : (Invoker.of breaker retry).circuits.rules = rules)
    (leads : Traffic.Leads { invoker := .of breaker retry } turns t)
    (idle : ∀ e ∈ t.going, e.1.service ≠ name) {now : Span}
    (cooled : lastChange rules name turns + Span.ofSeconds breaker.cooldownSeconds.toNat ≤ now) :
    ((∀ e ∈ t.dropped, e.1.service ≠ name) →
      ∃ permit, (t.invoker.circuits.acquire name now).1 = some permit) ∧
    ((t.invoker.circuits.acquire name now).1 = none →
      (t.invoker.circuits.of name).state = .halfOpen ∧ max breaker.maxRequests.toNat 1 ≤ t.lost name ∧
      ∀ later next, Traffic.Leads t later next → ∀ time, (next.invoker.circuits.acquire name time).1 = none) ∧
    (changes rules name turns ≤ Word.max64 →
      ((t.invoker.circuits.acquire name now).1 = none ↔
        (t.invoker.circuits.of name).state = .halfOpen ∧ t.lost name = max breaker.maxRequests.toNat 1)) := by
  have trials : rules.trialCalls = max breaker.maxRequests.toNat 1 := by rw [← configured]; rfl
  have cooldown : rules.cooldown = Span.ofSeconds breaker.cooldownSeconds.toNat := by rw [← configured]; rfl
  have bound : rules.trialCalls ≤ Word.max32 := by
    have word := breaker.maxRequests.toNat_lt
    rw [trials, Word.max32]
    omega
  have follows : t.Follows rules name turns := Traffic.follows_of_leads (configured ▸ rfl) leads name
  rw [← cooldown] at cooled
  rw [← trials]
  refine ⟨?_, ?_, ?_⟩
  · intro kept
    cases given : (t.invoker.circuits.acquire name now).1 with
    | some permit => exact ⟨permit, rfl⟩
    | none =>
      have dropped := (follows.locked_of_refused idle cooled given).2
      rw [Traffic.lost, permitsTo_idle kept, List.count_nil] at dropped
      exact absurd dropped (Nat.not_le_of_lt rules.trialCalls_pos)
  · intro refused
    obtain ⟨locked, dropped⟩ := follows.locked_of_refused idle cooled refused
    refine ⟨locked.circuits.state, dropped, ?_⟩
    intro later next leads_on time
    exact (locked.leads leads_on).circuits.refuses time
  · intro few
    constructor
    · intro refused
      have stands := (follows.locked_of_refused idle cooled refused).1.circuits.state
      exact ⟨stands, (follows.refuses_iff idle bound few stands now).1 refused⟩
    · intro dropped
      exact (follows.refuses_iff idle bound few dropped.1 now).2 dropped.2

end

/-- One failure opens the circuit for half a minute, and then one trial call is let through. -/
def oneTrial : Config.Breaker :=
  { maxRequests := 1, intervalSeconds := 0, cooldownSeconds := 30, failureThreshold := 1 }

/-- A call that is never answered. -/
def unanswered : Call Unit where
  service := "crm"
  operation := "get"
  script := fun _ => .never

/-- How a call ends that the service answers with an error of its own. -/
def serverError : Account Unit := ⟨[0], [], 0, .failed (.status 500 none "upstream says no")⟩

/-- A first call fails, and half a minute later a trial call is let through. -/
def oneFailure : List Turn :=
  [⟨.acquire "crm", Span.ofSeconds 30⟩, ⟨.record "crm" ⟨0⟩ .failure, 0⟩, ⟨.acquire "crm", 0⟩]

/-- The caller of the trial call drops it. -/
def afterDrop : Traffic Unit where
  invoker := { Invoker.of oneTrial {} with
    circuits := Circuits.after (Invoker.of oneTrial {}).circuits.rules oneFailure }
  dropped := [(unanswered, ⟨2⟩)]

theorem leads_afterDrop : Traffic.Leads { invoker := .of oneTrial {} } oneFailure afterDrop :=
  .step (.step (.step (.step .refl (.admits unanswered 0 rfl)) (.settles serverError 0 (.refl _)))
    (.admits unanswered (Span.ofSeconds 30) rfl)) (.drops (.refl _))

/-- No call goes on and the cooldown is over, and still a call is refused. -/
theorem dropped_trial_locks_out :
    ∃ turns, ∃ t : Traffic Unit, Traffic.Leads { invoker := .of oneTrial {} } turns t ∧ t.going = [] ∧
      lastChange (Invoker.of oneTrial {}).circuits.rules "crm" turns +
        Span.ofSeconds oneTrial.cooldownSeconds.toNat ≤ Span.ofSeconds 60 ∧
      (t.invoker.circuits.acquire "crm" (Span.ofSeconds 60)).1 = none :=
  ⟨oneFailure, afterDrop, leads_afterDrop, rfl, by decide +kernel, by decide +kernel⟩

/-- The service is locked out for good. -/
theorem lockout_iff_trials_dropped_oneTrial :
    ∃ rules, (Invoker.of oneTrial {}).circuits.rules = rules ∧
      Traffic.Leads { invoker := .of oneTrial {} } oneFailure afterDrop ∧
      (∀ e ∈ afterDrop.going, e.1.service ≠ "crm") ∧
      lastChange rules "crm" oneFailure + Span.ofSeconds oneTrial.cooldownSeconds.toNat ≤ Span.ofSeconds 60 ∧
      afterDrop.lost "crm" = 1 ∧ ∀ later next, Traffic.Leads afterDrop later next →
        ∀ time, (next.invoker.circuits.acquire "crm" time).1 = none := by
  have idle : ∀ e ∈ afterDrop.going, e.1.service ≠ "crm" := nofun
  have cooled : lastChange (Invoker.of oneTrial {}).circuits.rules "crm" oneFailure +
      Span.ofSeconds oneTrial.cooldownSeconds.toNat ≤ Span.ofSeconds 60 := by decide +kernel
  obtain ⟨_, good, exactly⟩ := lockout_iff_trials_dropped oneTrial {} "crm" rfl leads_afterDrop idle cooled
  have refused := (exactly (by decide +kernel)).2 ⟨by decide +kernel, by decide +kernel⟩
  exact ⟨_, rfl, leads_afterDrop, idle, cooled, by decide +kernel, (good refused).2.2⟩

end HostControl.Invocation
